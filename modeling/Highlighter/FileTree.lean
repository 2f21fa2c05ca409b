import Highlighter.FileTree.IoError
import Highlighter.FileTree.Path

/-!
# File trees

The files and directories that the program works on, and the directory in which it
works. A *location* is the list of names that leads to a file or directory from the
root, without any detour; a path is made into a location step by step
(`FileTree.locate`), and every step that is taken must be taken in a directory.

* `FileTree.find?`: the file or directory at a location;
* `FileTree.contentOf`, `FileTree.putFile`: the content of a file, by its path;
* `FileTree.makeDirectories`: a directory, with those it lies in.
-/

namespace Highlighter

/-- The names that lead from the root to a file or directory. -/
abbrev Location := List Text

/-- What may be found at a location. -/
inductive Entry where
  | file (content : List UInt8)
  | directory
deriving DecidableEq

/-- Files and directories, with a working directory. -/
structure FileTree where
  /-- The entries with their locations; of entries at the same location, the first counts. -/
  entries : List (Location × Entry)
  /-- The working directory. -/
  current : Location

namespace FileTree

/-- What is found at a location. The root is always a directory. -/
def find? (tree : FileTree) (location : Location) : Option Entry :=
  if location = [] then some .directory else tree.entries.lookup location

/-- The tree with an entry at a location. -/
def put (tree : FileTree) (location : Location) (entry : Entry) : FileTree :=
  { tree with entries := (location, entry) :: tree.entries }

/-- What is put at a location is found there, and nothing changes elsewhere. -/
theorem find?_put (tree : FileTree) (location other : Location) (entry : Entry)
    (h : location ≠ []) :
    (tree.put location entry).find? other =
      if other = location then some entry else tree.find? other := by
  by_cases ho : other = location
  · simp [find?, put, ho, h]
  · have hb : (other == location) = false := by simpa using ho
    simp [find?, put, List.lookup_cons, ho, hb]

/-! ### Paths in a tree -/

/-- The number of bytes that a name may have. -/
def nameLimit : Nat := 255

/-- The number of bytes that a path may have. -/
def pathLimit : Nat := 4095

/-- Takes a step from a location, which must be a directory. -/
def step (tree : FileTree) (location : Location) (name : Text) : Except IoError Location :=
  match tree.find? location with
  | none => .error .notFound
  | some (.file _) => .error .notADirectory
  | some .directory =>
    if name = [] ∨ name = ['.'] then .ok location
    else if name = ['.', '.'] then .ok location.dropLast
    else if nameLimit < Text.byteLength name then .error .nameTooLong
    else .ok (location ++ [name])

/-- The location to which steps lead; nothing needs to be there. -/
def follow (tree : FileTree) : Location → List Text → Except IoError Location
  | location, [] => .ok location
  | location, name :: names =>
    match tree.step location name with
    | .ok next => tree.follow next names
    | .error e => .error e

/-- The location to which the steps of a path lead, or those that are taken of them;
    nothing needs to be there. -/
def locateBy (tree : FileTree) (path : Path) (steps : List Text) : Except IoError Location :=
  if path.contains '\x00' then .error .invalidPath
  else if path = [] then .error .notFound
  else if pathLimit < Text.byteLength path then .error .nameTooLong
  else tree.follow (if Path.isAbsolute path then [] else tree.current) steps

/-- The location to which a path leads; nothing needs to be there. -/
def locate (tree : FileTree) (path : Path) : Except IoError Location :=
  tree.locateBy path (Path.steps path)

/-- What a path leads to. -/
def resolve (tree : FileTree) (path : Path) : Except IoError Entry :=
  match tree.locate path with
  | .error e => .error e
  | .ok location =>
    match tree.find? location with
    | some entry => .ok entry
    | none => .error .notFound

/-- A path leads to something. -/
def pathExists (tree : FileTree) (path : Path) : Bool :=
  (tree.resolve path).isOk

/-- A path leads to a directory. -/
def isDirectory (tree : FileTree) (path : Path) : Bool :=
  match tree.resolve path with
  | .ok .directory => true
  | _ => false

/-- A path leads to a file. -/
def isFile (tree : FileTree) (path : Path) : Bool :=
  match tree.resolve path with
  | .ok (.file _) => true
  | _ => false

/-! ### Files -/

/-- The content of a file. -/
def contentOf (tree : FileTree) (path : Path) : Except IoError (List UInt8) :=
  match tree.resolve path with
  | .ok (.file content) => .ok content
  | .ok .directory => .error .isADirectory
  | .error e => .error e

/-- The content of a file, as a text. -/
def readText (tree : FileTree) (path : Path) : Except IoError Text :=
  match tree.contentOf path with
  | .error e => .error e
  | .ok content =>
    match Text.ofBytes? content with
    | some text => .ok text
    | none => .error .invalidText

/-- The location of a path whose last step may lead to nothing, as it does before an
    entry is made there. -/
def locateEntry (tree : FileTree) (path : Path) : Except IoError Location :=
  tree.locateBy path (Path.entrySteps path)

/-- The tree after giving a file a content; the file is made if it is not there. -/
def putFile (tree : FileTree) (path : Path) (content : List UInt8) : Except IoError FileTree :=
  match tree.locateEntry path with
  | .error e => .error e
  | .ok location =>
    if !Path.namesEntry path || path.getLast? == some '/' then .error .isADirectory
    else
      match tree.find? location with
      | some .directory => .error .isADirectory
      | _ => .ok (tree.put location (.file content))

/-! ### Directories -/

/-- The tree after making a directory. -/
def makeDirectory (tree : FileTree) (path : Path) : Except IoError FileTree :=
  match tree.locateEntry path with
  | .error e => .error e
  | .ok location =>
    if !Path.namesEntry path then .error .alreadyExists
    else
      match tree.find? location with
      | some _ => .error .alreadyExists
      | none => .ok (tree.put location .directory)

/-- Makes a directory, or leaves the tree as it is if the directory is there. -/
def ensureDirectory (tree : FileTree) (path : Path) : FileTree × Except IoError Unit :=
  match tree.makeDirectory path with
  | .ok after => (after, .ok ())
  | .error e => (tree, if tree.isDirectory path then .ok () else .error e)

/-- Makes a directory with those it lies in, as far as they are not there, going up at
    most `height` times. -/
def makeDirectoriesWithin (tree : FileTree) : Nat → Path → FileTree × Except IoError Unit
  | height, path =>
    if path = [] then (tree, .ok ())
    else
      match tree.makeDirectory path, Path.parent? path, height with
      -- what it lies in is not there either
      | .error .notFound, some parent, height + 1 =>
        match tree.makeDirectoriesWithin height parent with
        | (after, .ok ()) => after.ensureDirectory path
        | (after, .error e) => (after, .error e)
      | _, _, _ => tree.ensureDirectory path

/-- Makes a directory with those it lies in, as far as they are not there. If this
    fails, the first of them may have been made. -/
def makeDirectories (tree : FileTree) (path : Path) : FileTree × Except IoError Unit :=
  tree.makeDirectoriesWithin (Path.names path).length path

end FileTree

end Highlighter
