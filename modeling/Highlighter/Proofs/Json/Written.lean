import Highlighter.Proofs.Json.Reader
import Highlighter.Proofs.Text
import Mathlib.Data.List.Forall2
import Mathlib.Data.List.TakeWhile

/-!
# JSON as written is read back

The parts of JSON that are written are put together of texts that are *written* for their values
(`Written`): whatever stands behind such a text, provided that a value may end there, the value is
read off it, and nothing more. Strings and numbers are written so for themselves (`written_string`,
`written_ofNat`), and arrays and objects if their parts are (`written_array`, `written_object`).
A text on its own is then read as the value for which it is written (`Written.read?_eq`).

No text that is written shows a control character, since strings escape them.
-/

namespace Highlighter.Json

variable {c : Char} {text rest : Text} {value : Value}

/-! ## Strings -/

theorem string?_cons_escaped {after : Text} (h : escape? text = some (c, after)) :
    string? ('\\' :: text) = (string? after).map fun (s, r) => (c :: s, r) := by
  rw [string?, if_neg (by decide), if_pos rfl]
  split
  next escaped after' heq =>
    rw [h] at heq
    cases heq
    rfl
  next heq => simp [h] at heq

theorem string?_cons_plain (hq : c ≠ '"') (hm : c ≠ '\\') (hc : 0x20 ≤ c.toNat) :
    string? (c :: text) = (string? text).map fun (s, r) => (c :: s, r) := by
  rw [string?, if_neg hq, if_neg hm, if_pos hc]

theorem codeUnit?_hexDigits {n : Nat} (h : n < 0x20) :
    codeUnit? ('0' :: '0' :: hexDigit (n / 16) :: hexDigit (n % 16) :: rest) = some (n, rest) := by
  have hdigits : ∀ n < 0x20, (['0', '0', hexDigit (n / 16), hexDigit (n % 16)].all isHexDigit) ∧
      Toml.ofDigits 16 ['0', '0', hexDigit (n / 16), hexDigit (n % 16)] = n := by decide
  rw [codeUnit?]
  simp only [List.take_succ_cons, List.take_zero, List.drop_succ_cons, List.drop_zero]
  rw [if_pos ⟨rfl, (hdigits n h).1⟩, (hdigits n h).2]

/-- A character is written by an escape that stands for it, or else by itself. -/
theorem escape_eq (c : Char) :
    (∃ tail, escape c = '\\' :: tail ∧ ∀ rest, escape? (tail ++ rest) = some (c, rest)) ∨
      escape c = [c] ∧ c ≠ '"' ∧ c ≠ '\\' ∧ 0x20 ≤ c.toNat := by
  by_cases hshort : c ∈ ['"', '\\', '\x08', '\x0c', '\n', '\r', '\t']
  · left
    simp only [List.mem_cons, List.not_mem_nil, or_false] at hshort
    rcases hshort with rfl | rfl | rfl | rfl | rfl | rfl | rfl <;> exact ⟨_, rfl, fun _ => rfl⟩
  simp only [List.mem_cons, List.not_mem_nil, or_false, not_or] at hshort
  obtain ⟨hquote, hmark, hb, hf, hn, hr, ht⟩ := hshort
  rw [escape, if_neg hquote, if_neg hmark, if_neg hb, if_neg hf, if_neg hn, if_neg hr, if_neg ht]
  by_cases hc : c.toNat < 0x20
  · refine .inl ⟨_, if_pos hc, fun rest => ?_⟩
    have hvalid : c.toNat.isValidChar := c.valid
    have hunit : codePoint? ('0' :: '0' :: hexDigit (c.toNat / 16) :: hexDigit (c.toNat % 16) ::
        rest) = some (c, rest) := by
      rw [codePoint?, codeUnit?_hexDigits hc, Option.bind_some]
      dsimp only
      rw [if_pos hvalid, Char.ofNat_toNat]
    exact hunit
  · exact .inr ⟨if_neg hc, hquote, hmark, Nat.le_of_not_lt hc⟩

theorem string?_flatMap_escape (text rest : Text) :
    string? (text.flatMap escape ++ '"' :: rest) = some (text, rest) := by
  induction text with
  | nil => rw [List.flatMap_nil, List.nil_append, string?, if_pos rfl]
  | cons c text ih =>
    rw [List.flatMap_cons, List.append_assoc]
    rcases escape_eq c with ⟨tail, htail, hescape⟩ | ⟨hplain, hq, hm, hc⟩
    · rw [htail, List.cons_append, string?_cons_escaped (hescape _), ih, Option.map_some]
    · rw [hplain, List.singleton_append, string?_cons_plain hq hm hc, ih, Option.map_some]

/-- What stands for a character in a string shows. -/
theorem le_toNat_of_mem_escape {d : Char} (h : d ∈ escape c) : 0x20 ≤ d.toNat := by
  have hhex : ∀ n < 0x20, 0x20 ≤ (hexDigit (n / 16)).toNat ∧ 0x20 ≤ (hexDigit (n % 16)).toNat := by
    decide
  rw [escape] at h
  split_ifs at h with _ _ _ _ _ _ _ hc
  all_goals simp only [List.mem_cons, List.not_mem_nil, or_false] at h
  · rcases h with rfl | rfl <;> decide
  · rcases h with rfl | rfl <;> decide
  · rcases h with rfl | rfl <;> decide
  · rcases h with rfl | rfl <;> decide
  · rcases h with rfl | rfl <;> decide
  · rcases h with rfl | rfl <;> decide
  · rcases h with rfl | rfl <;> decide
  · rcases h with rfl | rfl | rfl | rfl | rfl | rfl
    · decide
    · decide
    · decide
    · decide
    · exact (hhex _ hc).1
    · exact (hhex _ hc).2
  · subst h
    exact Nat.le_of_not_lt hc

/-! ## Texts written for values -/

/-- A value may end where it has such a text behind it. -/
def EndsValue (rest : Text) : Prop :=
  ∀ c ∈ rest.head?, c = ',' ∨ c = ']' ∨ c = '\x7d' ∨ isSpace c

/-- A text begins like a value or a member, rather than like what may stand before them. -/
def BeginsValue (text : Text) : Prop :=
  ∃ c tail, text = c :: tail ∧ ¬isSpace c ∧ c ≠ ']' ∧ c ≠ '\x7d'

/-- A text is written for a value: the value is read off it, and it shows all its characters. -/
structure Written (text : Text) (value : Value) : Prop where
  begins : BeginsValue text
  shown : ∀ c ∈ text, 0x20 ≤ c.toNat
  reads : ∀ steps rest, 2 * text.length ≤ steps → EndsValue rest →
    valueWithin? steps (text ++ rest) = some (value, rest)

theorem EndsValue.head_not (h : EndsValue rest) (hc : c ∈ rest.head?) :
    c.isDigit = false ∧ c ≠ '.' ∧ c ≠ 'e' ∧ c ≠ 'E' := by
  rcases h c hc with rfl | rfl | rfl | hspace
  · decide
  · decide
  · decide
  · simp only [isSpace, Bool.or_eq_true, beq_iff_eq] at hspace
    rcases hspace with ((rfl | rfl) | rfl) | rfl <;> decide

theorem skipSpaces_cons (h : ¬isSpace c) : skipSpaces (c :: text) = c :: text :=
  List.dropWhile_cons_of_neg h

theorem BeginsValue.skipSpaces_eq (h : BeginsValue text) : skipSpaces text = text := by
  obtain ⟨c, tail, rfl, hc, -⟩ := h
  exact skipSpaces_cons hc

theorem BeginsValue.append (h : BeginsValue text) (rest : Text) : BeginsValue (text ++ rest) := by
  obtain ⟨c, tail, rfl, hc⟩ := h
  exact ⟨c, tail ++ rest, rfl, hc⟩

/-- What begins a value takes steps to be read. -/
theorem BeginsValue.exists_steps {steps : Nat} (h : BeginsValue text)
    (hsteps : 2 * text.length ≤ steps) : ∃ n, steps = n + 1 := by
  obtain ⟨c, tail, rfl, -⟩ := h
  exact Nat.exists_eq_succ_of_ne_zero fun hzero => by simp [hzero] at hsteps

/-- A text that is written for a value is read as it. -/
theorem Written.read?_eq (h : Written text value) (hrest : ∀ c ∈ rest, isSpace c) :
    read? (text ++ rest) = some value := by
  have hends : EndsValue rest := fun c hc => .inr (.inr (.inr (hrest c (List.mem_of_mem_head? hc))))
  have hsteps : 2 * text.length ≤ 2 * (text ++ rest).length := by
    rw [List.length_append]
    omega
  rw [read?, (h.begins.append rest).skipSpaces_eq, h.reads _ _ hsteps hends]
  exact if_pos (List.dropWhile_eq_nil_iff.2 hrest)

theorem beginsValue_string (text : Text) : BeginsValue (string text) :=
  ⟨_, _, rfl, by decide, by decide, by decide⟩

theorem written_string (text : Text) : Written (string text) (.string text) where
  begins := beginsValue_string text
  shown c hc := by
    simp only [string, List.cons_append, List.mem_cons, List.mem_append, List.mem_flatMap,
      List.not_mem_nil, or_false] at hc
    rcases hc with rfl | ⟨d, -, hd⟩ | rfl
    · decide
    · exact le_toNat_of_mem_escape hd
    · decide
  reads steps rest hsteps _ := by
    obtain ⟨steps, rfl⟩ := (beginsValue_string text).exists_steps hsteps
    rw [string, List.append_assoc, List.cons_append, List.singleton_append, valueWithin?,
      string?_flatMap_escape, Option.map_some]

/-- The digits of a number, with nothing behind them that goes on with it, are the number. -/
theorem unsigned?_ofNat (n : Nat) (h : EndsValue rest) :
    unsigned? (Text.ofNat n ++ rest) = some (some n, rest) := by
  have hwhole : whole? (Text.ofNat n ++ rest) = some (Text.ofNat n, rest) := by
    rcases Text.ofNat_eq_or_head_ne n with hzero | hne
    · rw [hzero, List.singleton_append, whole?]
    · obtain ⟨d, ds, hds⟩ := List.exists_cons_of_ne_nil (Text.ofNat_ne_nil n)
      obtain ⟨htake, hdrop⟩ := Text.takeWhile_isDigit_ofNat (n := n) fun _ hd => (h.head_not hd).1
      rw [whole?, digits?, htake, hdrop, hds]
      simp_all
  have hfraction : (skipFraction? rest).bind skipExponent? = some rest := by
    cases rest with
    | nil => rfl
    | cons c rest =>
      obtain ⟨-, hpoint, he, hE⟩ := h.head_not (c := c) rfl
      rw [skipFraction?, Option.bind_some, skipExponent?, if_neg (not_or.2 ⟨he, hE⟩)]
      simp [hpoint]
  rw [unsigned?, hwhole, Option.bind_some]
  dsimp only
  rw [hfraction, Option.map_some, if_pos rfl, Text.ofDigitChars_ofNat]

theorem number?_ofNat (n : Nat) (h : EndsValue rest) :
    number? (Text.ofNat n ++ rest) = some (.integer n, rest) := by
  have hread := unsigned?_ofNat n h
  obtain ⟨d, ds, hds, hd⟩ := Text.exists_ofNat_eq_cons n
  rw [hds, List.cons_append] at hread ⊢
  rw [number?, hread, Option.map_some]
  · rfl
  · exact fun _ heq => Text.ne_of_isDigit hd (by decide) (List.cons.inj heq).1

theorem le_toNat_of_isDigit (h : c.isDigit) : 0x20 ≤ c.toNat := by
  have hbounds : 0x30 ≤ c.toNat ∧ c.toNat ≤ 0x39 := by
    simpa [Char.isDigit, UInt32.le_iff_toNat_le] using h
  omega

theorem beginsValue_ofNat (n : Nat) : BeginsValue (Text.ofNat n) := by
  obtain ⟨d, ds, hds, hd⟩ := Text.exists_ofNat_eq_cons n
  have hne (c : Char) (hc : c.isDigit = false) : d ≠ c := Text.ne_of_isDigit hd hc
  refine ⟨d, ds, hds, ?_, hne _ (by decide), hne _ (by decide)⟩
  simp [isSpace, hne ' ' (by decide), hne '\t' (by decide), hne '\n' (by decide),
    hne '\r' (by decide)]

theorem written_ofNat (n : Nat) : Written (Text.ofNat n) (.integer n) where
  begins := beginsValue_ofNat n
  shown _ hc := le_toNat_of_isDigit (Text.isDigit_of_mem_ofNat hc)
  reads steps rest hsteps hrest := by
    obtain ⟨steps, rfl⟩ := (beginsValue_ofNat n).exists_steps hsteps
    have hnumber := number?_ofNat n hrest
    obtain ⟨d, ds, hds, hd⟩ := Text.exists_ofNat_eq_cons n
    rw [hds, List.cons_append] at hnumber ⊢
    -- no other value begins with a digit
    rw [valueWithin?.eq_def]
    dsimp only
    split <;> simp_all

/-! ## Arrays and objects -/

theorem endsValue_cons (h : c = ',' ∨ c = ']' ∨ c = '\x7d') : EndsValue (c :: rest) := by
  rintro d ⟨⟩
  rcases h with h | h | h
  · exact .inl h
  · exact .inr (.inl h)
  · exact .inr (.inr (.inl h))

/-- What stands in brackets begins with the first of its parts. -/
theorem beginsValue_intercalate {texts : List Text} (h : ∀ text ∈ texts, BeginsValue text)
    (hne : texts ≠ []) : BeginsValue ([','].intercalate texts) := by
  obtain ⟨text, texts, rfl⟩ := List.exists_cons_of_ne_nil hne
  have hfirst := h text List.mem_cons_self
  cases texts with
  | nil => rwa [List.intercalate_singleton]
  | cons next texts =>
    rw [List.intercalate_cons_cons, List.append_assoc]
    exact hfirst.append _

theorem shown_intercalate {texts : List Text} (h : ∀ text ∈ texts, ∀ c ∈ text, 0x20 ≤ c.toNat)
    (hc : c ∈ [','].intercalate texts) : 0x20 ≤ c.toNat := by
  induction texts with
  | nil => cases hc
  | cons text texts ih =>
    obtain ⟨hfirst, hrest⟩ := List.forall_mem_cons.1 h
    by_cases hlast : texts = []
    · rw [hlast, List.intercalate_singleton] at hc
      exact hfirst c hc
    · rw [List.intercalate_cons_of_ne_nil hlast, List.mem_append, List.mem_append,
        List.mem_singleton] at hc
      rcases hc with (hc | rfl) | hc
      · exact hfirst c hc
      · decide
      · exact ih hrest hc

/-! ### Items -/

theorem itemsWithin?_last {steps : Nat} (h : Written text value)
    (hsteps : 2 * text.length ≤ steps) :
    itemsWithin? (steps + 1) (text ++ ']' :: rest) = some ([value], rest) := by
  rw [itemsWithin?, h.reads _ _ hsteps (endsValue_cons (by decide))]
  rfl

theorem itemsWithin?_more {steps : Nat} (h : Written text value)
    (hsteps : 2 * text.length ≤ steps) (hrest : BeginsValue rest) :
    itemsWithin? (steps + 1) (text ++ ',' :: rest) =
      (itemsWithin? steps rest).map fun (items, r) => (value :: items, r) := by
  rw [itemsWithin?, h.reads _ _ hsteps (endsValue_cons (by decide))]
  simp only [skipSpaces_cons (show ¬isSpace ',' by decide), hrest.skipSpaces_eq]

theorem itemsWithin?_intercalate {parts : List (Text × Value)}
    (h : ∀ part ∈ parts, Written part.1 part.2) (hne : parts ≠ []) {steps : Nat}
    (hsteps : 2 * ([','].intercalate (parts.map Prod.fst)).length < steps) :
    itemsWithin? steps ([','].intercalate (parts.map Prod.fst) ++ ']' :: rest) =
      some (parts.map Prod.snd, rest) := by
  induction parts generalizing steps with
  | nil => exact absurd rfl hne
  | cons part parts ih =>
    obtain ⟨hfirst, hrest⟩ := List.forall_mem_cons.1 h
    obtain ⟨steps, rfl⟩ := Nat.exists_eq_succ_of_ne_zero (Nat.ne_zero_of_lt hsteps)
    by_cases hlast : parts = []
    · rw [hlast, List.map_singleton, List.intercalate_singleton] at hsteps ⊢
      exact itemsWithin?_last hfirst (by omega)
    · have hmap : parts.map Prod.fst ≠ [] := mt List.map_eq_nil_iff.1 hlast
      have hbegins : BeginsValue ([','].intercalate (parts.map Prod.fst)) :=
        beginsValue_intercalate (List.forall_mem_map.2 fun part hmem => (hrest part hmem).begins)
          hmap
      rw [List.map_cons, List.intercalate_cons_of_ne_nil hmap] at hsteps ⊢
      simp only [List.length_append, List.length_singleton] at hsteps
      rw [List.append_assoc, List.append_assoc, List.singleton_append,
        itemsWithin?_more hfirst (by omega) (hbegins.append _), ih hrest hlast (by omega),
        Option.map_some, List.map_cons]

theorem beginsValue_array (values : List Text) : BeginsValue (array values) :=
  ⟨_, _, rfl, by decide, by decide, by decide⟩

/-- An array of texts that are written for values is written for the array of these. -/
theorem written_array (parts : List (Text × Value)) (h : ∀ part ∈ parts, Written part.1 part.2) :
    Written (array (parts.map Prod.fst)) (.array (parts.map Prod.snd)) where
  begins := beginsValue_array _
  shown c hc := by
    simp only [array, List.cons_append, List.mem_cons, List.mem_append, List.not_mem_nil,
      or_false] at hc
    rcases hc with rfl | hc | rfl
    · decide
    · exact shown_intercalate (List.forall_mem_map.2 fun part hmem => (h part hmem).shown) hc
    · decide
  reads steps rest hsteps _ := by
    obtain ⟨steps, rfl⟩ := (beginsValue_array _).exists_steps hsteps
    simp only [array, List.cons_append, List.length_cons, List.length_append,
      List.length_nil] at hsteps
    rw [array, List.append_assoc, List.cons_append, List.singleton_append, valueWithin?]
    by_cases hnil : parts = []
    · subst hnil
      rfl
    · have hread : itemsWithin? steps ([','].intercalate (parts.map Prod.fst) ++ ']' :: rest) = _ :=
        itemsWithin?_intercalate h hnil (by omega)
      obtain ⟨c, tail, hbegins, hspace, hbracket, -⟩ :=
        (beginsValue_intercalate (List.forall_mem_map.2 fun part hmem => (h part hmem).begins)
          (mt List.map_eq_nil_iff.1 hnil)).append (']' :: rest)
      rw [hbegins] at hread ⊢
      rw [skipSpaces_cons hspace]
      split
      next heq => exact absurd (List.cons.inj heq).1 hbracket
      next => rw [hread, Option.map_some]

/-! ### Members -/

/-- The text of a member of an object: its key, with a text for its value. -/
def memberText (field : Text × Text) : Text :=
  string field.1 ++ ':' :: field.2

theorem beginsValue_memberText (field : Text × Text) : BeginsValue (memberText field) :=
  ⟨_, _, rfl, by decide, by decide, by decide⟩

theorem length_lt_memberText (key text : Text) : text.length < (memberText (key, text)).length := by
  simp only [memberText, List.length_append, List.length_cons]
  omega

theorem memberText_append (key text rest : Text) :
    memberText (key, text) ++ rest =
      '"' :: (key.flatMap escape ++ '"' :: (':' :: (text ++ rest))) := by
  simp [memberText, string]

theorem membersWithin?_last {steps : Nat} {key : Text} (h : Written text value)
    (hsteps : 2 * text.length ≤ steps) :
    membersWithin? (steps + 1) (memberText (key, text) ++ '\x7d' :: rest) =
      some ([(key, value)], rest) := by
  have hends : EndsValue ('\x7d' :: rest) := endsValue_cons (by decide)
  rw [memberText_append, membersWithin?, string?_flatMap_escape]
  simp only [skipSpaces_cons (show ¬isSpace ':' by decide), (h.begins.append _).skipSpaces_eq,
    h.reads _ _ hsteps hends, skipSpaces_cons (show ¬isSpace '\x7d' by decide)]

theorem membersWithin?_more {steps : Nat} {key : Text} (h : Written text value)
    (hsteps : 2 * text.length ≤ steps) (hrest : BeginsValue rest) :
    membersWithin? (steps + 1) (memberText (key, text) ++ ',' :: rest) =
      (membersWithin? steps rest).map fun (members, r) => ((key, value) :: members, r) := by
  have hends : EndsValue (',' :: rest) := endsValue_cons (by decide)
  rw [memberText_append, membersWithin?, string?_flatMap_escape]
  simp only [skipSpaces_cons (show ¬isSpace ':' by decide), (h.begins.append _).skipSpaces_eq,
    h.reads _ _ hsteps hends, skipSpaces_cons (show ¬isSpace ',' by decide), hrest.skipSpaces_eq]

/-- The fields and the members of an object, of which each has a key, a text and a value. -/
theorem membersWithin?_intercalate {parts : List (Text × Text × Value)}
    (h : ∀ part ∈ parts, Written part.2.1 part.2.2) (hne : parts ≠ []) {steps : Nat}
    (hsteps : 2 * ([','].intercalate (parts.map fun part => memberText (part.1, part.2.1))).length
      < steps) :
    membersWithin? steps
        ([','].intercalate (parts.map fun part => memberText (part.1, part.2.1)) ++
          '\x7d' :: rest) =
      some (parts.map fun part => (part.1, part.2.2), rest) := by
  induction parts generalizing steps with
  | nil => exact absurd rfl hne
  | cons part parts ih =>
    obtain ⟨hfirst, hrest⟩ := List.forall_mem_cons.1 h
    obtain ⟨steps, rfl⟩ := Nat.exists_eq_succ_of_ne_zero (Nat.ne_zero_of_lt hsteps)
    have hlength := length_lt_memberText part.1 part.2.1
    by_cases hlast : parts = []
    · rw [hlast, List.map_singleton, List.intercalate_singleton] at hsteps ⊢
      exact membersWithin?_last hfirst (by omega)
    · have hmap : (parts.map fun part => memberText (part.1, part.2.1)) ≠ [] :=
        mt List.map_eq_nil_iff.1 hlast
      have hbegins := beginsValue_intercalate
        (List.forall_mem_map.2 fun part _ => beginsValue_memberText (part.1, part.2.1)) hmap
      rw [List.map_cons, List.intercalate_cons_of_ne_nil hmap] at hsteps ⊢
      simp only [List.length_append, List.length_singleton] at hsteps
      rw [List.append_assoc, List.append_assoc, List.singleton_append,
        membersWithin?_more hfirst (by omega) (hbegins.append _), ih hrest hlast (by omega),
        Option.map_some, List.map_cons]

theorem object_eq (parts : List (Text × Text × Value)) :
    object (parts.map fun part => (part.1, part.2.1)) =
      '\x7b' :: [','].intercalate (parts.map fun part => memberText (part.1, part.2.1)) ++
        ['\x7d'] := by
  rw [object, List.map_map]
  rfl

theorem beginsValue_object (fields : List (Text × Text)) : BeginsValue (object fields) :=
  ⟨_, _, rfl, by decide, by decide, by decide⟩

/-- An object of texts that are written for values is written for the object of these. -/
theorem written_object (parts : List (Text × Text × Value))
    (h : ∀ part ∈ parts, Written part.2.1 part.2.2) :
    Written (object (parts.map fun part => (part.1, part.2.1)))
      (.object (parts.map fun part => (part.1, part.2.2))) where
  begins := beginsValue_object _
  shown c hc := by
    simp only [object_eq, List.cons_append, List.mem_cons, List.mem_append, List.not_mem_nil,
      or_false] at hc
    rcases hc with rfl | hc | rfl
    · decide
    · refine shown_intercalate (List.forall_mem_map.2 fun part hmem d hd => ?_) hc
      rcases List.mem_append.1 hd with hd | hd
      · exact (written_string part.1).shown d hd
      · rcases List.mem_cons.1 hd with rfl | hd
        · decide
        · exact (h part hmem).shown d hd
    · decide
  reads steps rest hsteps _ := by
    obtain ⟨steps, rfl⟩ := (beginsValue_object _).exists_steps hsteps
    rw [object_eq] at hsteps ⊢
    simp only [List.cons_append, List.length_cons, List.length_append,
      List.length_nil] at hsteps
    rw [List.append_assoc, List.cons_append, List.singleton_append, valueWithin?]
    by_cases hnil : parts = []
    · subst hnil
      rfl
    · have hread : membersWithin? steps ([','].intercalate (parts.map fun part =>
          memberText (part.1, part.2.1)) ++ '\x7d' :: rest) = _ :=
        membersWithin?_intercalate h hnil (by omega)
      obtain ⟨c, tail, hbegins, hspace, -, hbrace⟩ :=
        (beginsValue_intercalate
          (List.forall_mem_map.2 fun part _ => beginsValue_memberText (part.1, part.2.1))
          (mt List.map_eq_nil_iff.1 hnil)).append ('\x7d' :: rest)
      rw [hbegins] at hread ⊢
      rw [skipSpaces_cons hspace]
      split
      next heq => exact absurd (List.cons.inj heq).1 hbrace
      next => rw [hread, Option.map_some]

end Highlighter.Json
