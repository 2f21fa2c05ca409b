import Highlighter.Failure
import Highlighter.FileTree
import Highlighter.Settings

/-!
# Settings files

Settings are read from a file that is named, or else from the first that is found in
the working directory, among the user's settings and among those of the system; where
none is found they are the defaults (`Settings.load`). They are saved with the
directories that their path leads through (`Settings.save`).
-/

namespace Highlighter

/-- Where a user keeps settings. -/
structure Places where
  /-- The directory of the user. -/
  home? : Option Path := none
  /-- The directory of settings of the system. -/
  system? : Option Path := none

namespace Settings

/-- The name of a settings file. -/
def fileName : Text := "ravt.toml".toList

/-- The settings in a file, on a machine with a number of processors. -/
def loadFile (cpus : UInt64) (tree : FileTree) (path : Path) : Except Failure Settings :=
  if !tree.pathExists path then .error (.settingsMissing path)
  else
    match tree.readText path with
    | .error e => .error (.io e)
    | .ok text =>
      match ofText? cpus text with
      | some settings => .ok settings
      | none => .error .settingsMalformed

/-- The paths where a settings file is looked for, in order. -/
def candidates (places : Places) : List Path :=
  [fileName]
    ++ (places.home?.map fun home =>
      Path.join (Path.join (Path.join home ".config".toList) "ravt".toList) fileName).toList
    ++ (places.system?.map fun system =>
      Path.join (Path.join system "ravt".toList) fileName).toList

/-- The settings to work with, where a file may be named. -/
def load (cpus : UInt64) (tree : FileTree) (places : Places) :
    Option Path → Except Failure Settings
  | some path => loadFile cpus tree path
  | none =>
    match (candidates places).find? tree.pathExists with
    | some path => loadFile cpus tree path
    | none => .ok (defaults cpus)

/-- Saves settings to a file, and answers the tree after it. -/
def save (tree : FileTree) (path : Path) (settings : Settings) : FileTree × Except Failure Unit :=
  match (Path.parent? path).elim (tree, .ok ()) tree.makeDirectories with
  | (after, .error e) => (after, .error (.io e))
  | (after, .ok ()) =>
    match after.putFile path (Text.bytes settings.write) with
    | .ok written => (written, .ok ())
    | .error e => (after, .error (.io e))

end Settings

end Highlighter
