import Highlighter.Text

/-!
# Paths

A path is kept as it was written, since that is how it is shown. Its *steps* are what
stands between slashes; most questions about a path are about its *names*, the steps
that say something: an empty step says nothing, and neither does `.`, unless it begins
a relative path.
-/

namespace Highlighter

/-- A path, as written. -/
abbrev Path := Text

namespace Path

/-- A path from the root. -/
def isAbsolute (path : Path) : Bool :=
  path.head? == some '/'

/-- What stands between the slashes of a path. -/
def steps (path : Path) : List Text :=
  Text.splitOn '/' path

/-- The steps of a path that say something. -/
def names (path : Path) : List Text :=
  match steps path with
  | [] => []
  | first :: rest =>
    (if first.isEmpty then [] else [first]) ++ rest.filter fun step => step ≠ [] ∧ step ≠ ['.']

/-- The steps of a path to an entry, whatever slashes stand behind it. -/
def entrySteps (path : Path) : List Text :=
  ((steps path).reverse.dropWhile (· = [])).reverse

/-- The last step of a path names an entry of a directory. -/
def namesEntry (path : Path) : Bool :=
  match (entrySteps path).getLast? with
  | some last => last ≠ ['.'] ∧ last ≠ ['.', '.']
  | none => false

/-- The path of names. -/
def ofNames (absolute : Bool) (names : List Text) : Path :=
  (if absolute then ['/'] else []) ++ ['/'].intercalate names

/-- The path of what a path lies in; the root and the empty path lie in nothing. -/
def parent? (path : Path) : Option Path :=
  match names path with
  | [] => none
  | _ :: _ => some (ofNames (isAbsolute path) (names path).dropLast)

/-- The path of a name in the directory of a path. -/
def join (path : Path) (name : Text) : Path :=
  if path.isEmpty || path.getLast? == some '/' then path ++ name else path ++ '/' :: name

end Path

end Highlighter
