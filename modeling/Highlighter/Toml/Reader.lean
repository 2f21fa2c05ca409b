import Highlighter.Toml.Number
import Highlighter.Toml.String
import Highlighter.Toml.Value

/-!
# Reading TOML

`Toml.read?` gives the table that a file of TOML holds, or nothing if the text is not
TOML. Arrays and tables in braces may lie in each other, and dotted keys have parts,
only up to `nestingLimit`.
-/

namespace Highlighter.Toml

/-- The number of arrays and tables that may lie in each other, and of parts of a key. -/
def nestingLimit : Nat := 79

/-! ## Keys -/

/-- A character of a key without quotes. -/
def isKeyPart (c : Char) : Bool :=
  c.isAlphanum || c == '_' || c == '-'

/-- A key without dots. -/
def simpleKey? (text : Text) : Reading Text :=
  match lineString? text with
  | some read => some read
  | none =>
    match text.takeWhile isKeyPart with
    | [] => none
    | key => some (key, text.drop key.length)

/-- A key of at most so many parts, with the blanks around them. -/
def keyWithin? : Nat → Text → Reading (List Text)
  | 0, _ => none
  | limit + 1, text =>
    (simpleKey? (skipSpaces text)).bind fun (part, rest) =>
      match skipSpaces rest with
      | '.' :: after => (keyWithin? limit after).map fun (parts, r) => (part :: parts, r)
      | after => some ([part], after)

/-- A key. -/
def key? : Text → Reading (List Text) :=
  keyWithin? nestingLimit

/-! ## Values -/

/-- The part of a text that was read. -/
def readPart (text rest : Text) : Text :=
  text.take (text.length - rest.length)

/-- A value that holds no others. -/
def scalar? (text : Text) : Reading Value :=
  match text with
  | 't' :: 'r' :: 'u' :: 'e' :: rest => some (.boolean true, rest)
  | 'f' :: 'a' :: 'l' :: 's' :: 'e' :: rest => some (.boolean false, rest)
  | _ =>
    match string? text with
    | some (s, rest) => some (.string s, rest)
    | none =>
      match dateTime? text with
      | some rest => some (.dateTime (readPart text rest), rest)
      | none =>
        match float? text with
        | some rest => some (.float (readPart text rest), rest)
        | none => (integer? text).map fun (n, rest) => (.integer n, rest)

/-- A key with its value, in braces. -/
def keyInBraces? (text : Text) : Reading (List Text) :=
  (key? text).bind fun (key, rest) =>
    match rest with
    | '=' :: after => some (key, skipSpaces after)
    | _ => none

mutual

/-- A value, in which others may lie at most `depth` deep. The first number bounds the
    steps of reading. -/
def valueWithin? : Nat → Nat → Text → Reading Value
  | 0, _, _ => none
  | steps + 1, depth, text =>
    match text with
    | '[' :: rest =>
      match depth with
      | 0 => none
      | depth + 1 =>
        (itemsWithin? steps depth rest).map fun (items, r) => (.array items, r)
    | '\x7b' :: rest =>
      match depth with
      | 0 => none
      | depth + 1 =>
        match skipSpaces rest with
        | '\x7d' :: after => some (.table .braced [], after)
        | inside =>
          (entriesWithin? steps depth [] inside).map fun (entries, r) =>
            (.table .braced entries, r)
    | _ => scalar? text

/-- The items of an array, from where one may begin. -/
def itemsWithin? : Nat → Nat → Text → Reading (List Value)
  | 0, _, _ => none
  | steps + 1, depth, text =>
    match skipFiller false text with
    | ']' :: rest => some ([], rest)
    | inside =>
      match valueWithin? steps depth inside with
      | none => none
      | some (item, after) =>
        match skipFiller false after with
        | ']' :: rest => some ([item], rest)
        | ',' :: rest =>
          (itemsWithin? steps depth rest).map fun (items, r) => (item :: items, r)
        | _ => none

/-- The entries of a table in braces, from where one begins, added to others. -/
def entriesWithin? : Nat → Nat → Entries → Text → Reading Entries
  | 0, _, _, _ => none
  | steps + 1, depth, entries, text =>
    match keyInBraces? text with
    | none => none
    | some (key, inside) =>
      match valueWithin? steps depth inside with
      | none => none
      | some (value, after) =>
        match entries.assign value key with
        | none => none
        | some entries =>
          match skipSpaces after with
          | '\x7d' :: rest => some (entries, rest)
          | ',' :: rest => entriesWithin? steps depth entries rest
          | _ => none

end

/-- A value. -/
def value? (text : Text) : Reading Value :=
  valueWithin? (2 * text.length + 2) nestingLimit text

/-! ## Files -/

/-- What a line of a file says. -/
inductive Statement where
  /-- Begins a table. -/
  | table (path : List Text)
  /-- Begins one more table of an array of tables. -/
  | row (path : List Text)
  /-- Gives a key a value. -/
  | assign (key : List Text) (value : Value)

/-- A header, after its opening bracket: the path, up to the closing bracket. -/
def header? (text : Text) : Reading (List Text) :=
  (key? text).bind fun (path, rest) =>
    match rest with
    | ']' :: after => some (path, after)
    | _ => none

/-- A statement, up to the end of its line. -/
def statement? (text : Text) : Reading Statement :=
  match text with
  | '[' :: '[' :: rest =>
    match header? rest with
    | some (path, ']' :: after) => (endLine? after).map fun r => (.row path, r)
    | _ => none
  | '[' :: rest =>
    match header? rest with
    | some (path, after) => (endLine? after).map fun r => (.table path, r)
    | none => none
  | _ =>
    match key? text with
    | some (key, '=' :: rest) =>
      match value? (skipSpaces rest) with
      | some (value, after) => (endLine? after).map fun r => (.assign key value, r)
      | none => none
    | _ => none

/-- The statements of a text, read in at most so many steps. -/
def statementsWithin? : Nat → Text → Option (List Statement)
  | 0, _ => none
  | steps + 1, text =>
    match skipSpaces text with
    | [] => some []
    | c :: rest =>
      if c = '#' ∨ c = '\n' ∨ c = '\r' then
        match endLine? (c :: rest) with
        | some after => statementsWithin? steps after
        | none => none
      else
        match statement? (c :: rest) with
        | some (statement, after) => (statementsWithin? steps after).map (statement :: ·)
        | none => none

/-- A table in the making: what it holds so far, and the path of the part to which keys
    are added. -/
structure Draft where
  root : Entries := []
  path : List Text := []

namespace Draft

/-- Does what a statement says. -/
def add (draft : Draft) : Statement → Option Draft
  | .table path =>
    match path.getLast? with
    | none => none
    | some key => (draft.root.openTable path.dropLast key).map fun root => ⟨root, path⟩
  | .row path =>
    match path.getLast? with
    | none => none
    | some key => (draft.root.openRow path.dropLast key).map fun root => ⟨root, path⟩
  | .assign key value =>
    (draft.root.descend (fun entries => entries.assign value key) draft.path).map fun root =>
      { draft with root }

end Draft

/-- A text without the mark at its beginning that says it is UTF-8. -/
def skipMark : Text → Text
  | '\ufeff' :: rest => rest
  | text => text

/-- The table that a text of TOML holds. -/
def read? (text : Text) : Option Entries :=
  match statementsWithin? (text.length + 1) (skipMark text) with
  | none => none
  | some statements => (statements.foldlM Draft.add {}).map (·.root)

end Highlighter.Toml
