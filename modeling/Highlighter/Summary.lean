import Highlighter.Document

/-!
# Summaries

The *summary* of a source says how many lines it has, how many tokens of each category
(in the order in which the categories first appear), and what it leaves open at its
end.
-/

namespace Highlighter

/-- Counts of categories, in the order in which these first appeared. -/
abbrev Counts := List (Category × Nat)

namespace Counts

/-- Counts one more of a category. -/
def increment : Counts → Category → Counts
  | [], category => [(category, 1)]
  | (counted, n) :: rest, category =>
    if counted = category then (counted, n + 1) :: rest
    else (counted, n) :: increment rest category

/-- The number of all that was counted. -/
def total (counts : Counts) : Nat :=
  (counts.map Prod.snd).foldr (· + ·) 0

end Counts

/-- The summary of a source. -/
structure Summary where
  path : Text
  /-- The number of lines. -/
  lines : Nat
  /-- The number of tokens of each category. -/
  counts : Counts
  /-- The number of brackets left open. -/
  openBrackets : Nat
  /-- A literal is left open. -/
  openLiteral : Bool
deriving DecidableEq

namespace Summary

/-- The categories of the tokens of a document, in order. -/
def categories (document : Document) : List Category :=
  document.lines.flatMap fun line => line.tokens.map (·.category)

/-- The summary of a source, which was read from a path. -/
def ofSource (path source : Text) : Summary :=
  let document := Document.ofText source
  { path
    lines := document.lineCount
    counts := (categories document).foldl Counts.increment []
    openBrackets := document.final.depth
    openLiteral := document.final.inLiteral }

/-- The number of tokens. -/
def total (summary : Summary) : Nat :=
  summary.counts.total

/-- The report of a summary. -/
def report (summary : Summary) : Text :=
  summary.path ++ "\n  lines: ".toList ++ Text.ofNat summary.lines ++ ['\n']
    ++ (summary.counts.flatMap fun (category, n) =>
      "  ".toList ++ category.label ++ ": ".toList ++ Text.ofNat n ++ ['\n'])
    ++ "  open brackets: ".toList ++ Text.ofNat summary.openBrackets
    ++ "\n  open string: ".toList
    ++ (if summary.openLiteral then "yes" else "no").toList ++ ['\n']

end Summary

end Highlighter
