import Highlighter.Proofs.Text
import Highlighter.Proofs.Toml.String
import Highlighter.Toml.Reader

/-!
# Values of TOML as written are read back

A string, a boolean and a number are read back as what they are from the end of a line
(`value?_writeString`, `value?_writeBool`, `value?_ofNat`).

For a number, other readings are tried before that as an integer. None of them gets through the
digits to the end of the line: a date has a dash behind its first digits, a time of day a colon, and
a float a point or an exponent (`dateTime?_digits`, `float?_ofNat`).
-/

namespace Highlighter.Toml

variable {c : Char} {digits rest after : Text} {n : Nat}

/-! ## Digits -/

theorem ofDigits_ofNat (n : Nat) : ofDigits 10 (Text.ofNat n) = n := by
  have hvalue : ofDigits 10 (Text.ofNat n) = Nat.ofDigitChars 10 (Text.ofNat n) 0 := by
    rw [ofDigits, Nat.ofDigitChars]
    refine List.foldl_ext _ _ _ fun k c hc => ?_
    rw [digitValue, if_pos (Text.isDigit_of_mem_ofNat hc)]
  rw [hvalue, Text.ofDigitChars_ofNat]

theorem moreDigits_append (h : ∀ d ∈ digits, d.isDigit) (rest : Text) :
    moreDigits Char.isDigit (digits ++ '\n' :: rest) = (digits, '\n' :: rest) := by
  induction digits with
  | nil => rfl
  | cons d digits ih =>
    obtain ⟨hd, hdigits⟩ := List.forall_mem_cons.1 h
    rw [List.cons_append, moreDigits, if_pos hd, ih hdigits]

theorem decimal?_ofNat (n : Nat) (rest : Text) :
    decimal? (Text.ofNat n ++ '\n' :: rest) = some (Text.ofNat n, '\n' :: rest) := by
  have hmore := moreDigits_append (fun _ => Text.isDigit_of_mem_ofNat (n := n)) rest
  rcases Text.ofNat_eq_or_head_ne n with hzero | hne
  · rw [hzero]
    rfl
  · obtain ⟨d, ds, hds, hd⟩ := Text.exists_ofNat_eq_cons n
    rw [hds] at hne hmore ⊢
    rw [List.cons_append] at hmore ⊢
    rw [decimal?, digits?, if_pos hd, hmore]
    rintro r ⟨⟩
    exact hne rfl

theorem sign_of_isDigit (h : c.isDigit) (text : Text) : sign (c :: text) = (false, c :: text) := by
  rw [sign] <;> rintro r ⟨⟩ <;> cases h

theorem sign_ofNat (n : Nat) (rest : Text) :
    sign (Text.ofNat n ++ rest) = (false, Text.ofNat n ++ rest) := by
  obtain ⟨d, ds, hds, hd⟩ := Text.exists_ofNat_eq_cons n
  rw [hds]
  exact sign_of_isDigit hd _

/-! ## Numbers -/

/-- A number at the end of a line has no prefix for another base. -/
theorem ofNat_append_ne (h : c ≠ '\n') (n : Nat) (rest r : Text) :
    Text.ofNat n ++ '\n' :: rest ≠ '0' :: c :: r := by
  intro heq
  rcases Text.ofNat_eq_or_head_ne n with hzero | hne
  · rw [hzero] at heq
    exact h (List.cons.inj (List.cons.inj heq).2).1.symm
  · obtain ⟨d, ds, hds, -⟩ := Text.exists_ofNat_eq_cons n
    rw [hds] at hne heq
    exact hne (congrArg some (List.cons.inj heq).1)

theorem integer?_ofNat (h : inRange n) (rest : Text) :
    integer? (Text.ofNat n ++ '\n' :: rest) = some ((n : Int), '\n' :: rest) := by
  rw [integer?, sign_ofNat, decimal?_ofNat, Option.bind_some]
  · simp [ofDigits_ofNat, h]
  all_goals exact ofNat_append_ne (by decide) n rest

/-- A float has a point or an exponent. -/
theorem float?_ofNat (n : Nat) (rest : Text) : float? (Text.ofNat n ++ '\n' :: rest) = none := by
  have hdecimal : decimalFloat? (Text.ofNat n ++ '\n' :: rest) = none := by
    rw [decimalFloat?, sign_ofNat, decimal?_ofNat]
    simp [fraction?, exponent?]
  have hnamed : namedFloat? (Text.ofNat n ++ '\n' :: rest) = none := by
    obtain ⟨d, ds, hds, hd⟩ := Text.exists_ofNat_eq_cons n
    rw [namedFloat?, sign_ofNat, hds]
    split
    next heq => exact absurd (List.cons.inj heq).1 (Text.ne_of_isDigit hd (by decide))
    next heq => exact absurd (List.cons.inj heq).1 (Text.ne_of_isDigit hd (by decide))
    next => rfl
  rw [float?, hdecimal, hnamed, Option.or_none]

/-- Behind some of the digits of a line there are only more of them. -/
theorem exists_of_field? {count low high value : Nat} (h : ∀ d ∈ digits, d.isDigit)
    (hfield : field? count low high (digits ++ '\n' :: rest) = some (value, after)) :
    ∃ others, (∀ d ∈ others, d.isDigit) ∧ after = others ++ '\n' :: rest := by
  rw [field?] at hfield
  split at hfield
  next hcond =>
    obtain ⟨-, rfl⟩ := Prod.mk.inj (Option.some.inj hfield)
    have hcount : count ≤ digits.length := by
      by_contra hlt
      -- the line end would be one of the digits
      have hmem : '\n' ∈ (digits ++ '\n' :: rest).take count := by
        obtain ⟨k, rfl⟩ : ∃ k, count = digits.length + (k + 1) :=
          ⟨count - digits.length - 1, by omega⟩
        rw [List.take_length_add_append]
        simp
      have := List.all_eq_true.1 hcond.2.1 _ hmem
      cases this
    refine ⟨digits.drop count, fun d hd => h d (List.mem_of_mem_drop hd), ?_⟩
    exact List.drop_append_of_le_length hcount
  next => cases hfield

theorem mark?_digits (h : ∀ d ∈ digits, d.isDigit) (hdigit : c.isDigit = false) (hc : c ≠ '\n') :
    mark? c (digits ++ '\n' :: rest) = none := by
  cases digits with
  | nil => exact if_neg hc.symm
  | cons d digits =>
    exact if_neg (Text.ne_of_isDigit (h d List.mem_cons_self) hdigit)

/-- Digits at the end of a line are no date and no time of day. -/
theorem dateTime?_digits (h : ∀ d ∈ digits, d.isDigit) (rest : Text) :
    dateTime? (digits ++ '\n' :: rest) = none := by
  have hdate : date? (digits ++ '\n' :: rest) = none := by
    rw [date?]
    cases hfield : field? 4 0 9999 (digits ++ '\n' :: rest) with
    | none => rfl
    | some year =>
      obtain ⟨others, hothers, hafter⟩ := exists_of_field? h hfield
      simp [hafter, mark?_digits hothers]
  have htime : time? (digits ++ '\n' :: rest) = none := by
    rw [time?, hourMinute?]
    cases hfield : field? 2 0 23 (digits ++ '\n' :: rest) with
    | none => rfl
    | some hour =>
      obtain ⟨others, hothers, hafter⟩ := exists_of_field? h hfield
      simp [hafter, mark?_digits hothers]
  rw [dateTime?, hdate, htime]

/-! ## Values -/

theorem value?_cons (hbracket : c ≠ '[') (hbrace : c ≠ '\x7b') (text : Text) :
    value? (c :: text) = scalar? (c :: text) := by
  rw [value?, valueWithin?.eq_def]
  dsimp only
  split
  next heq => exact absurd (List.cons.inj heq).1 hbracket
  next heq => exact absurd (List.cons.inj heq).1 hbrace
  next => rfl

/-- What begins with neither of the letters that booleans begin with is a string, a date or a
    number. -/
theorem scalar?_cons (ht : c ≠ 't') (hf : c ≠ 'f') (text : Text) :
    scalar? (c :: text) =
      match string? (c :: text) with
      | some (s, rest) => some (.string s, rest)
      | none =>
        match dateTime? (c :: text) with
        | some rest => some (.dateTime (readPart (c :: text) rest), rest)
        | none =>
          match float? (c :: text) with
          | some rest => some (.float (readPart (c :: text) rest), rest)
          | none => (integer? (c :: text)).map fun (n, rest) => (.integer n, rest) := by
  rw [scalar?.eq_def]
  split
  next heq => exact absurd (List.cons.inj heq).1 ht
  next heq => exact absurd (List.cons.inj heq).1 hf
  next => rfl

theorem value?_writeBool (b : Bool) (rest : Text) :
    value? (writeBool b ++ rest) = some (.boolean b, rest) := by
  cases b <;> rfl

theorem value?_writeString (text rest : Text) :
    value? (writeString text ++ '\n' :: rest) = some (.string text, '\n' :: rest) := by
  have hread : string? (writeString text ++ '\n' :: rest) = some (text, '\n' :: rest) :=
    string?_writeString text (by simp) (by simp)
  obtain ⟨tail, htail | htail⟩ := exists_writeString_eq text
  all_goals
    rw [htail, List.cons_append] at hread ⊢
    rw [value?_cons (by decide) (by decide), scalar?_cons (by decide) (by decide), hread]

theorem value?_ofNat (h : inRange n) (rest : Text) :
    value? (Text.ofNat n ++ '\n' :: rest) = some (.integer n, '\n' :: rest) := by
  -- the other readings are told on the whole text, before its first digit is split off
  have hdate := dateTime?_digits (fun _ => Text.isDigit_of_mem_ofNat (n := n)) rest
  have hfloat := float?_ofNat n rest
  have hinteger := integer?_ofNat h rest
  obtain ⟨d, ds, hds, hd⟩ := Text.exists_ofNat_eq_cons n
  have hne (c : Char) (hc : c.isDigit = false) : d ≠ c := Text.ne_of_isDigit hd hc
  rw [hds, List.cons_append] at hdate hfloat hinteger ⊢
  have hstring : string? (d :: (ds ++ '\n' :: rest)) = none := by
    rw [string?, lineString?]
    all_goals
      intro r heq
      exact hne _ (by decide) (List.cons.inj heq).1
  rw [value?_cons (hne _ (by decide)) (hne _ (by decide)),
    scalar?_cons (hne _ (by decide)) (hne _ (by decide)), hstring, hdate, hfloat, hinteger,
    Option.map_some]

end Highlighter.Toml
