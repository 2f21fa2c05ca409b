import Highlighter.Text

/-!
# Values of TOML

A file of TOML is a table: keys with values, which may be tables themselves. How a table
came about is kept with it (`Origin`), as it decides where more keys may be added:

* a dotted key may go through tables that dotted keys or headers of others made, not
  through one that has a header or braces of its own;
* a header may go through all tables but those in braces, and through the last table
  of an array of tables; it may make a table its own that only headers of others made.

No key is given two values.
-/

namespace Highlighter.Toml

/-- How a table came about. -/
inductive Origin where
  /-- By the header of a table in it. -/
  | implied
  /-- By a dotted key. -/
  | dotted
  /-- By its header. -/
  | headed
  /-- In braces. -/
  | braced
deriving DecidableEq

/-- A value of TOML. Floats, dates and times are kept as they are written. -/
inductive Value where
  | string (text : Text)
  | integer (n : Int)
  | float (text : Text)
  | boolean (b : Bool)
  | dateTime (text : Text)
  | array (items : List Value)
  | table (origin : Origin) (entries : List (Text × Value))
  /-- An array of tables, each with its header. -/
  | tables (rows : List (List (Text × Value)))

/-- Keys with values. -/
abbrev Entries := List (Text × Value)

namespace Entries

/-- The value of a key. -/
def find? (entries : Entries) (key : Text) : Option Value :=
  entries.lookup key

/-- Gives a key a value, in place of the one it has. -/
def put (key : Text) (value : Value) : Entries → Entries
  | [] => [(key, value)]
  | (other, old) :: rest =>
    if other = key then (key, value) :: rest else (other, old) :: put key value rest

/-- Changes the last of the rows of an array of tables. -/
def mapLast? (f : Entries → Option Entries) : List Entries → Option (List Entries)
  | [] => none
  | [row] => (f row).map fun row => [row]
  | row :: rows => (mapLast? f rows).map (row :: ·)

/-- Changes the table that a header leads to, through tables that are made as needed. -/
def descend (f : Entries → Option Entries) : List Text → Entries → Option Entries
  | [], entries => f entries
  | key :: path, entries =>
    match entries.find? key with
    | none => (descend f path []).map fun t => entries.put key (.table .implied t)
    -- a table in braces is complete where it is written
    | some (.table .braced _) => none
    | some (.table origin t) => (descend f path t).map fun t => entries.put key (.table origin t)
    | some (.tables rows) =>
      (mapLast? (descend f path) rows).map fun rows => entries.put key (.tables rows)
    | some _ => none

/-- Begins the table of a header, whose last name is given apart. -/
def openTable (path : List Text) (key : Text) : Entries → Option Entries :=
  descend
    (fun entries =>
      match entries.find? key with
      | none => some (entries.put key (.table .headed []))
      | some (.table .implied t) => some (entries.put key (.table .headed t))
      | some _ => none)
    path

/-- Begins one more table of an array of tables. -/
def openRow (path : List Text) (key : Text) : Entries → Option Entries :=
  descend
    (fun entries =>
      match entries.find? key with
      | none => some (entries.put key (.tables [[]]))
      | some (.tables rows) => some (entries.put key (.tables (rows ++ [[]])))
      | some _ => none)
    path

/-- Gives a dotted key a value. -/
def assign (value : Value) : List Text → Entries → Option Entries
  | [], _ => none
  | [key], entries =>
    match entries.find? key with
    | none => some (entries.put key value)
    | some _ => none
  | key :: next :: path, entries =>
    match entries.find? key with
    | none => (assign value (next :: path) []).map fun t => entries.put key (.table .dotted t)
    | some (.table .dotted t) =>
      (assign value (next :: path) t).map fun t => entries.put key (.table .dotted t)
    -- a dotted key may lead through such a table, but not end right in it
    | some (.table .implied t) =>
      if path = [] then none
      else (assign value (next :: path) t).map fun t => entries.put key (.table .implied t)
    | some (.tables rows) =>
      if path = [] then none
      else
        (mapLast? (assign value (next :: path)) rows).map fun rows =>
          entries.put key (.tables rows)
    | some _ => none

end Entries

end Highlighter.Toml
