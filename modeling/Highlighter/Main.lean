import Highlighter.Program

/-!
# Calling the program

The program on a machine. What its files hold as far as the call may look at it is read
beforehand (`snapshot`), and what the call makes of it is written afterwards (`apply`);
in between, `Program.run` does the work.
-/

namespace Highlighter.Program

/-- The path of a location. -/
def absolutePath (location : Location) : String :=
  String.ofList (Path.ofNames true location)

/-- What the machine holds at a location. That it is a directory is known by the error 21 on
    reading it. -/
def look (location : Location) : IO (Option Entry) := do
  match ← (IO.FS.readBinFile (absolutePath location)).toBaseIO with
  | .ok content => return some (.file content.toList)
  | .error (.inappropriateType _ 21 _) => return some .directory
  | .error _ => return none

/-- The locations that the steps of a path go through. -/
def locationsOf (current : Location) (path : Path) : List Location :=
  let start : Location := if Path.isAbsolute path then [] else current
  let through := (Path.names path).foldl
    (fun found name =>
      let last := (found.head?).getD start
      (if name = ['.'] then last
        else if name = ['.', '.'] then last.dropLast
        else last ++ [name]) :: found)
    [start]
  through.reverse

/-- The tree of what the machine holds along paths. -/
def snapshot (current : Location) (paths : List Path) : IO FileTree := do
  let above := (List.range (current.length + 1)).map fun depth =>
    (current.take depth, Entry.directory)
  let mut entries := above
  for location in (paths.flatMap (locationsOf current)).eraseDups do
    if let some entry ← look location then entries := (location, entry) :: entries
  return { entries, current }

/-- The number of processors of the machine, or one if it does not tell. -/
def processors : IO UInt64 := do
  match ← (IO.FS.readFile "/proc/cpuinfo").toBaseIO with
  | .ok description =>
    let lines := Text.splitOn '\n' description.toList
    return UInt64.ofNat (max 1 (lines.countP ("processor".toList.isPrefixOf ·)))
  | .error _ => return 1

/-- Makes what was put into a tree since a snapshot, in the same order. -/
def apply (before after : FileTree) : IO Unit := do
  let made := after.entries.take (after.entries.length - before.entries.length)
  for (location, entry) in made.reverse do
    match entry with
    | .directory => IO.FS.createDirAll (absolutePath location)
    | .file content => IO.FS.writeBinFile (absolutePath location) content.toByteArray

end Highlighter.Program

open Highlighter in
/-- Carries out a call on the machine. -/
def main (arguments : List String) : IO UInt32 := do
  let variableOf (name : String) : IO (Option Text) := return (← IO.getEnv name).map String.toList
  let environment : Variables :=
    { verbose? := ← variableOf "RAVT_VERBOSE"
      config? := ← variableOf "RAVT_CONFIG"
      noColor? := ← variableOf "RAVT_NO_COLOR" }
  let home? ← variableOf "HOME"
  let system? := ((← variableOf "XDG_CONFIG_HOME").filter Path.isAbsolute).or
    (home?.map fun home => Path.join home ".config".toList)
  let places : Places := { home?, system? }
  let call := arguments.map String.toList
  let current := Path.names (← IO.currentDir).toString.toList
  let before ← Program.snapshot current (Program.paths call environment places)
  let run := Program.run call environment places (← Program.processors) before
  Program.apply before run.tree
  let output ← IO.getStdout
  output.write run.output.toByteArray
  output.flush
  (← IO.getStderr).putStr (String.ofList (Program.messages run))
  return UInt32.ofNat run.exitCode
