import Highlighter.Command
import Highlighter.Settings.File

/-!
# Setting up

A settings file with the defaults is written into a directory, which is made if it is
not there. A settings file that is there already is only written over if this is asked
for.
-/

namespace Highlighter

/-- What a settings file is asked for. -/
structure SetupRequest where
  /-- The directory, if it is not the working directory. -/
  target? : Option Path := none
  /-- A settings file that is there is written over. -/
  force : Bool := false

/-- What comes of setting up: the path of the settings file or a failure, with the tree
    after it and what was told. -/
structure Setup where
  result : Except Failure Path
  tree : FileTree
  log : Log

namespace SetupRequest

/-- The directory of the settings file. -/
def target (request : SetupRequest) : Path :=
  request.target?.getD ['.']

/-- The directory of the settings file, which is made if nothing is there. -/
def prepare (tree : FileTree) (target : Path) : FileTree × Except Failure Unit × Log :=
  if !tree.pathExists target then
    let made := tree.makeDirectories target
    (made.1, made.2.mapError .io, [⟨.debug, "Creating directory: ".toList ++ target⟩])
  else if !tree.isDirectory target then (tree, .error (.targetNotDirectory target), [])
  else (tree, .ok (), [])

/-- Writes a settings file with the defaults on a machine with a number of processors, and
    answers its path. -/
def run (request : SetupRequest) (verbose : Bool) (cpus : UInt64) (tree : FileTree) : Setup :=
  match prepare tree request.target with
  | (tree, .error e, log) => ⟨.error e, tree, log⟩
  | (tree, .ok (), log) =>
    let path := Path.join request.target Settings.fileName
    if tree.pathExists path && !request.force then ⟨.error (.settingsExist path), tree, log⟩
    else
      match Settings.save tree path (.defaults cpus) with
      | (tree, .error e) => ⟨.error e, tree, log⟩
      | (tree, .ok ()) =>
        ⟨.ok path, tree,
          log ++ if verbose then [⟨.info, "Created ".toList ++ path⟩] else []⟩

end SetupRequest

end Highlighter
