import Highlighter.Failure
import Highlighter.FileTree

/-!
# Sources

A *source* is the text of a file that the program is given as input.
-/

namespace Highlighter

/-- The text of an input, which has to be a file. -/
def readSource (tree : FileTree) (path : Path) : Except Failure Text :=
  if !tree.pathExists path then .error (.inputMissing path)
  else if !tree.isFile path then .error (.inputNotFile path)
  else (tree.readText path).mapError (.inputUnreadable path)

/-- Commands need an input. -/
def requireInput (inputs : List Path) : Except Failure Unit :=
  if inputs.isEmpty then .error .noInput else .ok ()

/-- Files that failed make the command fail. -/
def requireNoFailure (failed : Nat) : Except Failure Unit :=
  if failed = 0 then .ok () else .error (.filesFailed failed)

end Highlighter
