import Highlighter.Proofs.Toml.Value

/-!
# Statements of TOML as written are read back

What is written of a file of TOML are entries, headers and empty lines, each up to the end of its
line. A text of them *says* statements (`Says`) if these are read off it one after the other,
whatever stands behind it: an entry gives its key its value (`says_writeEntry`), a header begins its
table (`says_writeHeader`), an empty line says nothing; and what is put together of such texts says
the statements of all of them (`Says.append`).

A text on its own holds the table that comes of the statements it says (`Says.read?_eq`).
-/

namespace Highlighter.Toml

variable {c d : Char} {key text rest : Text}

/-! ## Keys -/

/-- A key that needs no quotes. -/
structure IsBareKey (key : Text) : Prop where
  ne_nil : key ≠ []
  isKeyPart : ∀ c ∈ key, isKeyPart c

theorem ne_of_isKeyPart (hc : isKeyPart c) (hd : isKeyPart d = false) : c ≠ d := by
  rintro rfl
  rw [hc] at hd
  cases hd

theorem IsBareKey.exists_cons (h : IsBareKey key) :
    ∃ c tail, key = c :: tail ∧ Toml.isKeyPart c := by
  obtain ⟨c, tail, rfl⟩ := List.exists_cons_of_ne_nil h.ne_nil
  exact ⟨c, tail, rfl, h.isKeyPart c List.mem_cons_self⟩

theorem IsBareKey.simpleKey?_append (h : IsBareKey key) (hd : Toml.isKeyPart d = false)
    (rest : Text) : simpleKey? (key ++ d :: rest) = some (key, d :: rest) := by
  have htake : (key ++ d :: rest).takeWhile Toml.isKeyPart = key := by
    rw [List.takeWhile_append_of_pos h.isKeyPart, List.takeWhile_cons_of_neg (by simp [hd]),
      List.append_nil]
  obtain ⟨c, tail, rfl, hc⟩ := h.exists_cons
  -- a quote would begin a quoted key
  have hline : lineString? (c :: tail ++ d :: rest) = none := by
    rw [List.cons_append, lineString?]
    all_goals
      intro r heq
      exact ne_of_isKeyPart hc (by decide) (List.cons.inj heq).1
  rw [simpleKey?, hline]
  dsimp only
  rw [htake]
  exact congrArg (fun r => some (c :: tail, r)) List.drop_left

theorem skipSpaces_cons (h : isSpace c = false) (rest : Text) :
    skipSpaces (c :: rest) = c :: rest :=
  List.dropWhile_cons_of_neg (by simp [h])

theorem isSpace_of_isKeyPart (h : isKeyPart c) : isSpace c = false := by
  simp [isSpace, ne_of_isKeyPart h (d := ' ') (by decide),
    ne_of_isKeyPart h (d := '\t') (by decide)]

theorem IsBareKey.skipSpaces_append (h : IsBareKey key) (rest : Text) :
    skipSpaces (key ++ rest) = key ++ rest := by
  obtain ⟨c, tail, rfl, hc⟩ := h.exists_cons
  exact skipSpaces_cons (isSpace_of_isKeyPart hc) _

/-- A key on its own, with a mark behind it before which there may be blanks. -/
theorem IsBareKey.key?_append (h : IsBareKey key) (hd : Toml.isKeyPart d = false)
    (hskip : skipSpaces (d :: rest) = c :: text) (hc : c ≠ '.') :
    key? (key ++ d :: rest) = some ([key], c :: text) := by
  have hkey : keyWithin? (78 + 1) (key ++ d :: rest) = some ([key], c :: text) := by
    rw [keyWithin?, h.skipSpaces_append, h.simpleKey?_append hd, Option.bind_some]
    dsimp only
    rw [hskip]
    split
    next heq => exact absurd (List.cons.inj heq).1 hc
    next => rfl
  exact hkey

/-! ## Statements -/

theorem statement?_of_key? {path : List Text} {value : Value} {after : Text}
    (hhead : text.head? ≠ some '[') (hkey : key? text = some (path, '=' :: rest))
    (hvalue : value? (skipSpaces rest) = some (value, after)) :
    statement? text = (endLine? after).map fun r => (.assign path value, r) := by
  rw [statement?, hkey]
  · simp only [hvalue]
  all_goals
    rintro r rfl
    exact hhead rfl

/-- A text is written for a value: whatever the line is that ends behind it, the value is read off
    it. -/
structure IsWritten (text : Text) (value : Value) : Prop where
  skipSpaces_eq : ∀ rest, skipSpaces (text ++ rest) = text ++ rest
  value?_eq : ∀ rest, value? (text ++ '\n' :: rest) = some (value, '\n' :: rest)

theorem statement?_writeEntry {value : Value} (hkey : IsBareKey key) (h : IsWritten text value)
    (rest : Text) :
    statement? (writeEntry key text ++ rest) = some (.assign [key] value, rest) := by
  have hwritten : writeEntry key text ++ rest =
      key ++ ' ' :: '=' :: ' ' :: (text ++ '\n' :: rest) := by
    simp [writeEntry]
  have hread : key? (writeEntry key text ++ rest) =
      some ([key], '=' :: ' ' :: (text ++ '\n' :: rest)) := by
    rw [hwritten]
    exact hkey.key?_append (by decide) rfl (by decide)
  have hhead : (writeEntry key text ++ rest).head? ≠ some '[' := by
    obtain ⟨c, tail, rfl, hc⟩ := hkey.exists_cons
    exact fun heq => ne_of_isKeyPart hc (by decide) (Option.some.inj heq)
  have hvalue : value? (skipSpaces (' ' :: (text ++ '\n' :: rest))) =
      some (value, '\n' :: rest) :=
    (congrArg value? (h.skipSpaces_eq _)).trans (h.value?_eq rest)
  rw [statement?_of_key? hhead hread hvalue]
  rfl

theorem statement?_writeHeader (hkey : IsBareKey key) (rest : Text) :
    statement? (writeHeader key ++ rest) = some (.table [key], rest) := by
  have hwritten : writeHeader key ++ rest = '[' :: (key ++ ']' :: '\n' :: rest) := by
    simp [writeHeader]
  have hread : key? (key ++ ']' :: '\n' :: rest) = some ([key], ']' :: '\n' :: rest) :=
    hkey.key?_append (by decide) rfl (by decide)
  rw [hwritten, statement?, header?, hread]
  · rfl
  · obtain ⟨c, tail, rfl, hc⟩ := hkey.exists_cons
    intro r heq
    exact ne_of_isKeyPart hc (by decide) (List.cons.inj heq).1

/-! ## Texts that say statements -/

/-- A text says statements, one a line or none: they are read off it line by line, and then what
    stands behind it. -/
def Says (text : Text) (statements : List Statement) : Prop :=
  ∃ lines ≤ text.length, ∀ steps rest, statementsWithin? (steps + lines) (text ++ rest) =
    (statementsWithin? steps rest).map (statements ++ ·)

theorem Says.append {other : Text} {statements others : List Statement}
    (h : Says text statements) (hother : Says other others) :
    Says (text ++ other) (statements ++ others) := by
  obtain ⟨lines, hlines, hreads⟩ := h
  obtain ⟨more, hmore, hothers⟩ := hother
  refine ⟨more + lines, by simp; omega, fun steps rest => ?_⟩
  rw [List.append_assoc, ← Nat.add_assoc, hreads, hothers, Option.map_map]
  simp [Function.comp_def]

theorem says_newline : Says ['\n'] [] := by
  refine ⟨1, Nat.le_refl _, fun steps rest => ?_⟩
  rw [List.singleton_append, statementsWithin?, skipSpaces_cons rfl]
  dsimp only
  rw [if_pos (by simp)]
  exact Option.map_id'.symm

theorem says_statement {statement : Statement} {tail : Text} (hspace : isSpace c = false)
    (hc : c ∉ ['#', '\n', '\r'])
    (h : ∀ rest, statement? (c :: tail ++ rest) = some (statement, rest)) :
    Says (c :: tail) [statement] := by
  refine ⟨1, by simp, fun steps rest => ?_⟩
  have hread := h rest
  rw [List.cons_append] at hread ⊢
  rw [statementsWithin?, skipSpaces_cons hspace]
  dsimp only
  rw [if_neg (by simpa using hc), hread]
  rfl

theorem says_writeEntry {value : Value} (hkey : IsBareKey key) (h : IsWritten text value) :
    Says (writeEntry key text) [.assign [key] value] := by
  obtain ⟨c, tail, rfl, hc⟩ := hkey.exists_cons
  refine says_statement (isSpace_of_isKeyPart hc) ?_ (statement?_writeEntry hkey h)
  have hne (d : Char) (hd : Toml.isKeyPart d = false) : c ≠ d := ne_of_isKeyPart hc hd
  simp [hne '#' (by decide), hne '\n' (by decide), hne '\r' (by decide)]

theorem says_writeHeader (hkey : IsBareKey key) : Says (writeHeader key) [.table [key]] :=
  says_statement (by decide) (by decide) (statement?_writeHeader hkey)

/-- A text that says statements holds the table that comes of them. -/
theorem Says.read?_eq {statements : List Statement} (h : Says text statements)
    (hmark : skipMark text = text) :
    read? text = (statements.foldlM Draft.add {}).map (·.root) := by
  obtain ⟨lines, hlines, hreads⟩ := h
  -- no line takes more steps than it has characters, so that a step is left for the end
  have hend : statementsWithin? (text.length - lines + 1) [] = some [] := rfl
  have hread := hreads (text.length - lines + 1) []
  rw [hend, List.append_nil, Nat.add_right_comm, Nat.sub_add_cancel hlines, Option.map_some,
    List.append_nil] at hread
  rw [read?, hmark, hread]

end Highlighter.Toml
