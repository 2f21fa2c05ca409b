import Highlighter.Toml.String
import Highlighter.Toml.Writer
import Mathlib.Data.List.Basic

/-!
# Strings of TOML as written are read back

Every text is read back from the string that is written for it, whatever it holds
(`string?_writeString`). The four ways of writing are looked at one by one:

* in a basic string every character is written by itself or by an escape that stands for it
  (`writeChar_eq`), and the quote and the line end always by an escape;
* in a literal string every character is written by itself, so that it must be one that may stand
  there, which is when this way is taken;
* over several lines, quotes are left as they are up to two in a row. Such a run does not end the
  string, as three would; and at the end of the text, where the closing quotes come right behind,
  it is what the reader takes for the quotes before these (`closing?_eq`).

A text with line ends is written over several lines after a line end of its own, which is no part of
it; a text without begins with none that could be taken for it.
-/

namespace Highlighter.Toml

variable {c : Char} {text rest : Text} {quote : Char} {n : Nat}

/-! ## Escapes -/

theorem codePoint?_upperHexDigits (hn : n < 0x80) (rest : Text) :
    codePoint? 4 ('0' :: '0' :: upperHexDigit (n / 16) :: upperHexDigit (n % 16) :: rest) =
      some (Char.ofNat n, rest) := by
  have hdigits : ∀ n < 0x80,
      (['0', '0', upperHexDigit (n / 16), upperHexDigit (n % 16)].all isHexDigit) ∧
        ofDigits 16 ['0', '0', upperHexDigit (n / 16), upperHexDigit (n % 16)] = n ∧
        n.isValidChar := by decide
  obtain ⟨hhex, hvalue, hvalid⟩ := hdigits n hn
  rw [codePoint?]
  simp only [List.take_succ_cons, List.take_zero, List.drop_succ_cons, List.drop_zero]
  rw [if_pos ⟨rfl, hhex⟩, hvalue, charOfCode?, if_pos hvalid, Option.map_some]

/-- What follows an escape mark begins with something other than blanks and line ends, and stands
    for a character. -/
def StandsFor (escape : Text) (c : Char) : Prop :=
  (∀ rest, escape? (escape ++ rest) = some (c, rest)) ∧
    ∀ rest, newline? (skipSpaces (escape ++ rest)) = none

theorem standsFor_quote : StandsFor ['"'] '"' :=
  ⟨fun _ => rfl, fun _ => rfl⟩

theorem standsFor_newline : StandsFor ['n'] '\n' :=
  ⟨fun _ => rfl, fun _ => rfl⟩

/-- A character of a basic string is written by an escape that stands for it, or else by itself. -/
theorem writeChar_eq (c : Char) :
    (∃ escape, writeChar c = '\\' :: escape ∧ StandsFor escape c) ∨
      writeChar c = [c] ∧ isPlain c ∧ c ≠ '\\' := by
  by_cases hshort : c ∈ ['\x08', '\t', '\x0c', '\r', '\\']
  · left
    simp only [List.mem_cons, List.not_mem_nil, or_false] at hshort
    rcases hshort with rfl | rfl | rfl | rfl | rfl <;>
      exact ⟨_, rfl, fun _ => rfl, fun _ => rfl⟩
  simp only [List.mem_cons, List.not_mem_nil, or_false, not_or] at hshort
  obtain ⟨hb, ht, hf, hr, hmark⟩ := hshort
  rw [writeChar, if_neg hb, if_neg ht, if_neg hf, if_neg hr, if_neg hmark]
  by_cases hplain : isPlain c
  · exact .inr ⟨if_pos hplain, hplain, hmark⟩
  · have hlt : c.toNat < 0x80 := by
      simp only [isPlain, Bool.or_eq_true, Bool.and_eq_true, beq_iff_eq, decide_eq_true_eq,
        bne_iff_ne, not_or, not_and, not_not] at hplain
      omega
    refine .inl ⟨_, if_neg hplain, fun rest => ?_, fun _ => rfl⟩
    have hcode := codePoint?_upperHexDigits hlt rest
    rw [Char.ofNat_toNat] at hcode
    exact hcode

theorem basic?_cons_escaped {escape : Text} (h : StandsFor escape c) (rest : Text) :
    basic? ('\\' :: (escape ++ rest)) = (basic? rest).map fun (s, r) => (c :: s, r) := by
  rw [basic?, if_neg (by decide), if_pos rfl]
  split
  next escaped after heq =>
    rw [h.1] at heq
    cases heq
    rfl
  next heq => simp [h.1] at heq

theorem basic?_cons_plain (hquote : c ≠ '"') (hmark : c ≠ '\\') (hplain : isPlain c) :
    basic? (c :: rest) = (basic? rest).map fun (s, r) => (c :: s, r) := by
  rw [basic?, if_neg hquote, if_neg hmark, if_pos hplain]

/-! ## On one line -/

theorem basic?_writeBasic (text rest : Text) :
    basic? (writeBasic text ++ '"' :: rest) = some (text, rest) := by
  induction text with
  | nil => rw [writeBasic, List.flatMap_nil, List.nil_append, basic?, if_pos rfl]
  | cons c text ih =>
    rw [writeBasic, List.flatMap_cons, List.append_assoc, ← writeBasic]
    split_ifs with hq hn
    · have hescaped := basic?_cons_escaped standsFor_quote (writeBasic text ++ '"' :: rest)
      rw [ih, Option.map_some] at hescaped
      rw [hq]
      exact hescaped
    · have hescaped := basic?_cons_escaped standsFor_newline (writeBasic text ++ '"' :: rest)
      rw [ih, Option.map_some] at hescaped
      rw [hn]
      exact hescaped
    · rcases writeChar_eq c with ⟨escape, hescape, hstands⟩ | ⟨hwrite, hplain, hmark⟩
      · rw [hescape, List.cons_append, basic?_cons_escaped hstands, ih, Option.map_some]
      · rw [hwrite, List.singleton_append, basic?_cons_plain hq hmark hplain, ih, Option.map_some]

theorem literal?_append (h : ∀ c ∈ text, isPlain c ∧ c ≠ '\'') (rest : Text) :
    literal? (text ++ '\'' :: rest) = some (text, rest) := by
  induction text with
  | nil => rfl
  | cons c text ih =>
    obtain ⟨⟨hplain, hquote⟩, hrest⟩ := List.forall_mem_cons.1 h
    rw [List.cons_append, literal?, if_neg hquote, if_pos hplain, ih hrest, Option.map_some]

/-! ## Runs of quotes -/

/-- Behind so many quotes, a text has at most as many at its beginning as make two; they are all of
    it, or something else comes behind them. -/
def ShortRun (quote : Char) (n : Nat) (text : Text) : Prop :=
  ∃ m, n + m ≤ 2 ∧ (text = List.replicate m quote ∨
    ∃ d tail, d ≠ quote ∧ text = List.replicate m quote ++ d :: tail)

theorem shortRun_nil (h : n ≤ 2) : ShortRun quote n [] :=
  ⟨0, h, .inl rfl⟩

theorem shortRun_of_ne (h : n ≤ 2) (hc : c ≠ quote) (text : Text) : ShortRun quote n (c :: text) :=
  ⟨0, h, .inr ⟨c, text, hc, rfl⟩⟩

theorem ShortRun.cons (h : ShortRun quote (n + 1) text) : ShortRun quote n (quote :: text) := by
  obtain ⟨m, hm, hrun⟩ := h
  refine ⟨m + 1, by omega, ?_⟩
  rcases hrun with rfl | ⟨d, tail, hd, rfl⟩
  · exact .inl rfl
  · exact .inr ⟨d, tail, hd, rfl⟩

theorem shortRun_of_longestRunFrom (h : longestRunFrom quote n text ≤ 2) :
    ShortRun quote n text := by
  induction text generalizing n with
  | nil => exact shortRun_nil h
  | cons c text ih =>
    rw [longestRunFrom] at h
    split at h
    next hc =>
      rw [hc]
      exact (ih h).cons
    next hc => exact shortRun_of_ne (Nat.le_trans (Nat.le_max_left n _) h) hc text

/-- Behind a character, runs of quotes are as short as before. -/
theorem exists_longestRunFrom_le (h : longestRunFrom quote n (c :: text) ≤ 2) :
    ∃ m, longestRunFrom quote m text ≤ 2 := by
  rw [longestRunFrom] at h
  split at h
  · exact ⟨_, h⟩
  · exact ⟨0, Nat.le_trans (Nat.le_max_right n _) h⟩

theorem takeWhile_replicate (n : Nat) (h : rest.head? ≠ some quote) :
    (List.replicate n quote ++ rest).takeWhile (· == quote) = List.replicate n quote := by
  have hstop : rest.takeWhile (· == quote) = [] := by
    cases rest with
    | nil => rfl
    | cons c rest => exact List.takeWhile_cons_of_neg (by simpa using h)
  rw [List.takeWhile_append_of_pos (by simp), hstop, List.append_nil]

/-- Where a text that begins with a short run of quotes has the closing quotes behind it, these are
    found if there is nothing but quotes before them, which are then the text. -/
theorem closing?_eq (h : ShortRun quote n text) (hrest : rest.head? ≠ some quote) :
    closing? quote (text ++ quote :: quote :: quote :: rest) =
      if text.all (· == quote) then some (text, rest) else none := by
  obtain ⟨m, hm, rfl | ⟨d, tail, hd, rfl⟩⟩ := h
  · have hrun : List.replicate m quote ++ quote :: quote :: quote :: rest =
        List.replicate (m + 3) quote ++ rest := by
      rw [← List.replicate_append_replicate, List.append_assoc]
      rfl
    have hkept : min (m + 3 - 3) 2 = m := by omega
    rw [if_pos (by simp), closing?, hrun,
      takeWhile_replicate _ hrest, List.length_replicate, if_pos (by omega), hkept]
    dsimp only
    rw [List.drop_left' List.length_replicate]
  · rw [if_neg (by simp [hd]), closing?, List.append_assoc, List.cons_append,
      takeWhile_replicate _ (by simpa using hd), List.length_replicate, if_neg (by omega)]

/-! ## Literal strings over several lines -/

theorem literalLines?_of_closing? {closed : Text × Text} (h : closing? '\'' text = some closed) :
    literalLines? text = some closed := by
  cases text with
  | nil => cases h
  | cons c text => rw [literalLines?, h]

theorem literalLines?_cons (h : closing? '\'' (c :: text) = none) (hc : isPlain c ∨ c = '\n') :
    literalLines? (c :: text) = (literalLines? text).map fun (s, r) => (c :: s, r) := by
  have hreturn : c ≠ '\r' := by
    rintro rfl
    revert hc
    decide
  rw [literalLines?, h]
  dsimp only
  rw [if_neg fun hand => hreturn hand.1, if_pos hc]

theorem literalLines?_append (h : ∀ c ∈ text, isPlain c ∨ c = '\n')
    (hrun : longestRunFrom '\'' n text ≤ 2) (hrest : rest.head? ≠ some '\'') :
    literalLines? (text ++ '\'' :: '\'' :: '\'' :: rest) = some (text, rest) := by
  induction text generalizing n with
  | nil =>
    exact literalLines?_of_closing?
      ((closing?_eq (shortRun_of_longestRunFrom hrun) hrest).trans (if_pos (by simp)))
  | cons c text ih =>
    have hclosing := closing?_eq (shortRun_of_longestRunFrom hrun) hrest
    split at hclosing
    · exact literalLines?_of_closing? hclosing
    · -- even if the character is a quote, something else comes before the closing quotes
      obtain ⟨hfirst, hothers⟩ := List.forall_mem_cons.1 h
      obtain ⟨m, hm⟩ := exists_longestRunFrom_le hrun
      rw [List.cons_append] at hclosing ⊢
      rw [literalLines?_cons hclosing hfirst, ih hothers hm, Option.map_some]

/-! ## Basic strings over several lines -/

theorem basicLines?_of_closing? {closed : Text × Text} (h : closing? '"' text = some closed) :
    basicLines? text = some closed := by
  cases text with
  | nil => cases h
  | cons c text => rw [basicLines?, h]

theorem basicLines?_cons_plain (h : closing? '"' (c :: text) = none) (hmark : c ≠ '\\')
    (hc : isPlain c ∨ c = '\n') :
    basicLines? (c :: text) = (basicLines? text).map fun (s, r) => (c :: s, r) := by
  have hreturn : c ≠ '\r' := by
    rintro rfl
    revert hc
    decide
  rw [basicLines?, h]
  dsimp only
  rw [if_neg hmark, if_neg fun hand => hreturn hand.1, if_pos hc]

theorem basicLines?_cons_escaped {escape : Text} (h : StandsFor escape c) (rest : Text) :
    basicLines? ('\\' :: (escape ++ rest)) = (basicLines? rest).map fun (s, r) => (c :: s, r) := by
  have hclosing : closing? '"' ('\\' :: (escape ++ rest)) = none := by
    simp [closing?]
  rw [basicLines?, hclosing]
  dsimp only
  rw [if_pos rfl, h.2, if_neg (by simp)]
  split
  next escaped after heq =>
    rw [h.1] at heq
    cases heq
    rfl
  next heq => simp [h.1] at heq

theorem shortRun_writeBasicLines (hn : n ≤ 2) (text : Text) :
    ShortRun '"' n (writeBasicLines n text) := by
  induction text generalizing n with
  | nil => exact shortRun_nil hn
  | cons c text ih =>
    rw [writeBasicLines]
    split_ifs with hc htwo hnewline
    · exact shortRun_of_ne hn (by decide) _
    · exact (ih (by omega)).cons
    · exact shortRun_of_ne hn (by decide) _
    · rcases writeChar_eq c with ⟨escape, hescape, -⟩ | ⟨hwrite, -⟩
      · rw [hescape]
        exact shortRun_of_ne hn (by decide) _
      · rw [hwrite]
        exact shortRun_of_ne hn hc _

/-- Where nothing but quotes is written, they are the text. -/
theorem eq_of_writeBasicLines (h : ∀ c ∈ writeBasicLines n text, c = '"') :
    writeBasicLines n text = text := by
  induction text generalizing n with
  | nil => rfl
  | cons c text ih =>
    rw [writeBasicLines] at h ⊢
    split_ifs at h ⊢ with hc htwo hnewline
    · exact absurd (h '\\' (by simp)) (by decide)
    · rw [ih (List.forall_mem_cons.1 h).2, hc]
    · exact absurd (h '\n' (by simp)) (by decide)
    · rcases writeChar_eq c with ⟨escape, hescape, -⟩ | ⟨hwrite, -⟩
      · exact absurd (h '\\' (by simp [hescape])) (by decide)
      · exact absurd (h c (by simp [hwrite])) hc

theorem basicLines?_writeBasicLines (hn : n ≤ 2) (hrest : rest.head? ≠ some '"') :
    basicLines? (writeBasicLines n text ++ '"' :: '"' :: '"' :: rest) = some (text, rest) := by
  induction text generalizing n with
  | nil =>
    exact basicLines?_of_closing?
      ((closing?_eq (shortRun_nil hn) hrest).trans (if_pos (by simp)))
  | cons c text ih =>
    have hclosing := closing?_eq (shortRun_writeBasicLines hn (c :: text)) hrest
    split at hclosing
    next hquotes =>
      rw [eq_of_writeBasicLines (by simpa using hquotes)] at hclosing ⊢
      exact basicLines?_of_closing? hclosing
    next =>
      rw [writeBasicLines] at hclosing ⊢
      split_ifs at hclosing ⊢ with hc htwo hnewline
      · have hescaped := basicLines?_cons_escaped standsFor_quote
          (writeBasicLines 0 text ++ '"' :: '"' :: '"' :: rest)
        rw [ih (by omega), Option.map_some] at hescaped
        rw [hc]
        exact hescaped
      · -- the quote has something else behind it before the closing quotes
        rw [List.cons_append] at hclosing ⊢
        rw [basicLines?_cons_plain hclosing (by decide) (by decide), ih (by omega),
          Option.map_some, hc]
      · rw [List.cons_append] at hclosing ⊢
        rw [basicLines?_cons_plain hclosing (by decide) (by decide), ih (by omega),
          Option.map_some, hnewline]
      · rw [List.append_assoc] at hclosing ⊢
        rcases writeChar_eq c with ⟨escape, hescape, hstands⟩ | ⟨hwrite, hplain, hmark⟩
        · rw [hescape, List.cons_append, basicLines?_cons_escaped hstands, ih (by omega),
            Option.map_some]
        · rw [hwrite, List.singleton_append] at hclosing ⊢
          rw [basicLines?_cons_plain hclosing hmark (.inl hplain), ih (by omega), Option.map_some]

/-! ## All of them -/

theorem le_longestRunFrom (quote : Char) (n : Nat) (text : Text) :
    n ≤ longestRunFrom quote n text := by
  induction text generalizing n with
  | nil => exact Nat.le_refl n
  | cons c text ih =>
    rw [longestRunFrom]
    split
    · exact Nat.le_trans (Nat.le_succ n) (ih (n + 1))
    · exact Nat.le_max_left n _

theorem not_mem_of_longestRunFrom_eq_zero (h : longestRunFrom quote n text = 0) : quote ∉ text := by
  induction text generalizing n with
  | nil => exact List.not_mem_nil
  | cons c text ih =>
    rw [longestRunFrom] at h
    split at h
    next =>
      have := le_longestRunFrom quote (n + 1) text
      omega
    next hc =>
      exact List.not_mem_cons_of_ne_of_not_mem (Ne.symm hc) (ih (Nat.max_eq_zero_iff.1 h).2)

theorem isPlain_or_of_any_eq_false (h : text.any needsEscape = false) :
    ∀ c ∈ text, isPlain c ∨ c = '\n' := by
  simpa [needsEscape, or_iff_not_imp_left] using h

/-- A literal string is written only for a text on one line that it can hold. -/
theorem of_styleOf_literal (h : styleOf text = .literal) : ∀ c ∈ text, isPlain c ∧ c ≠ '\'' := by
  rw [styleOf] at h
  split_ifs at h with _ hliteral
  simp only [Bool.and_eq_true, Bool.not_eq_true', decide_eq_true_eq] at hliteral
  obtain ⟨⟨hcontrols, hnewline⟩, hrun⟩ := hliteral
  intro c hc
  have hquote := not_mem_of_longestRunFrom_eq_zero hrun
  refine ⟨(isPlain_or_of_any_eq_false hcontrols c hc).resolve_right ?_, ?_⟩
  · rintro rfl
    simp [hc] at hnewline
  · rintro rfl
    exact hquote hc

/-- A literal string over several lines is written only for a text that it can hold. -/
theorem of_styleOf_literalLines (h : styleOf text = .literalLines) :
    (∀ c ∈ text, isPlain c ∨ c = '\n') ∧ longestRun '\'' text ≤ 2 := by
  rw [styleOf] at h
  split_ifs at h with _ _ _ hliteral
  simp only [Bool.and_eq_true, Bool.not_eq_true', decide_eq_true_eq] at hliteral
  exact ⟨isPlain_or_of_any_eq_false hliteral.1, hliteral.2⟩

theorem string?_cons_basic (h : ∀ r, text ≠ '"' :: '"' :: r) :
    string? ('"' :: text) = basic? text := by
  rw [string?, lineString?]
  · rintro r ⟨⟩
    exact h r rfl
  · rintro r ⟨⟩

theorem string?_cons_literal (h : ∀ r, text ≠ '\'' :: '\'' :: r) :
    string? ('\'' :: text) = literal? text := by
  rw [string?, lineString?]
  · rintro r ⟨⟩
  · rintro r ⟨⟩
    exact h r rfl

theorem head?_writeBasic_ne (text : Text) : (writeBasic text).head? ≠ some '"' := by
  cases text with
  | nil => simp [writeBasic]
  | cons c text =>
    rw [writeBasic, List.flatMap_cons]
    split_ifs with hq hn
    · simp
    · simp
    · rcases writeChar_eq c with ⟨escape, hescape, -⟩ | ⟨hwrite, -⟩
      · simp [hescape]
      · simpa [hwrite] using hq

theorem newline?_cons (hn : c ≠ '\n') (hr : c ≠ '\r') : newline? (c :: rest) = none := by
  rw [newline?]
  · rintro r ⟨⟩
    exact hn rfl
  · rintro r ⟨⟩
    exact hr rfl

theorem newline?_writeBasicLines (h : '\n' ∉ text) :
    newline? (writeBasicLines 0 text ++ '"' :: rest) = none := by
  cases text with
  | nil => exact newline?_cons (by decide) (by decide)
  | cons c text =>
    rw [writeBasicLines]
    split_ifs with hq _ hn
    · exact newline?_cons (by decide) (by decide)
    · exact newline?_cons (by decide) (by decide)
    · exact absurd (by simp [hn]) h
    · rcases writeChar_eq c with ⟨escape, hescape, -⟩ | ⟨hwrite, hplain, -⟩
      · rw [hescape]
        exact newline?_cons (by decide) (by decide)
      · rw [hwrite]
        refine newline?_cons hn ?_
        rintro rfl
        cases hplain

theorem newline?_of_isPlain (h : ∀ c ∈ text, isPlain c) :
    newline? (text ++ '\'' :: rest) = none := by
  cases text with
  | nil => exact newline?_cons (by decide) (by decide)
  | cons c text =>
    have hplain := (List.forall_mem_cons.1 h).1
    refine newline?_cons ?_ ?_ <;> rintro rfl <;> cases hplain

/-- The line end before a text with line ends is no part of it. -/
theorem skipNewline_opening (text body : Text) (h : '\n' ∉ text → newline? body = none) :
    skipNewline ((if text.contains '\n' then ['\n'] else []) ++ body) = body := by
  split
  next => rfl
  next hn => rw [List.nil_append, skipNewline, h (by simpa using hn), Option.getD_none]

/-- What is written for a text begins with a quote. -/
theorem exists_writeString_eq (text : Text) :
    ∃ tail, writeString text = '"' :: tail ∨ writeString text = '\'' :: tail := by
  rw [writeString]
  cases styleOf text with
  | basic => exact ⟨_, .inl rfl⟩
  | literal => exact ⟨_, .inr rfl⟩
  | basicLines => exact ⟨_, .inl rfl⟩
  | literalLines => exact ⟨_, .inr rfl⟩

/-- A string on one line does not begin with three quotes. -/
theorem append_quote_ne {body : Text} (hbody : body.head? ≠ some quote)
    (hrest : rest.head? ≠ some quote) (r : Text) : body ++ quote :: rest ≠ quote :: quote :: r := by
  intro h
  cases body with
  | nil =>
    obtain ⟨-, rfl⟩ := List.cons.inj h
    exact hrest rfl
  | cons d body => exact hbody (congrArg some (List.cons.inj h).1)

/-- What is written for a text is read as it. Behind it there must be no quote, which could go on
    with it. -/
theorem string?_writeString (text : Text) (hbasic : rest.head? ≠ some '"')
    (hliteral : rest.head? ≠ some '\'') :
    string? (writeString text ++ rest) = some (text, rest) := by
  rw [writeString]
  cases hstyle : styleOf text with
  | basic =>
    have hwritten : '"' :: writeBasic text ++ ['"'] ++ rest =
        '"' :: (writeBasic text ++ '"' :: rest) := by simp
    dsimp only
    rw [hwritten, string?_cons_basic (append_quote_ne (head?_writeBasic_ne text) hbasic)]
    exact basic?_writeBasic text rest
  | literal =>
    have hplain := of_styleOf_literal hstyle
    have hwritten : '\'' :: text ++ ['\''] ++ rest = '\'' :: (text ++ '\'' :: rest) := by simp
    have hhead : text.head? ≠ some '\'' := fun h =>
      (hplain '\'' (List.mem_of_mem_head? h)).2 rfl
    dsimp only
    rw [hwritten, string?_cons_literal (append_quote_ne hhead hliteral)]
    exact literal?_append hplain rest
  | basicLines =>
    have hopening := skipNewline_opening text (writeBasicLines 0 text ++ '"' :: '"' :: '"' :: rest)
      newline?_writeBasicLines
    simp only [List.append_assoc, List.cons_append, List.nil_append]
    rw [string?, hopening]
    exact basicLines?_writeBasicLines (by decide) hbasic
  | literalLines =>
    obtain ⟨hplain, hrun⟩ := of_styleOf_literalLines hstyle
    -- a text on one line has no line end before it, and must not begin with one itself
    have hopening := skipNewline_opening text (text ++ '\'' :: '\'' :: '\'' :: rest) fun hn =>
      newline?_of_isPlain fun c hc => (hplain c hc).resolve_right fun h => hn (h ▸ hc)
    simp only [List.append_assoc, List.cons_append, List.nil_append]
    rw [string?, hopening]
    exact literalLines?_append hplain hrun hliteral

end Highlighter.Toml
