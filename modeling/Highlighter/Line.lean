import Highlighter.Lexer

/-!
# Lines

`tokenizeLine` is the whole of lexing for one line: its tokens, and the context that
it leaves to the next line. A line with nothing in it begins a new statement even
where a literal goes on over it; any other line is read by the lexer.

`splitLines` gives the lines of a text: its pieces between line feeds, each without
one carriage return at its end.
-/

namespace Highlighter

/-- The tokens of a line read in a context, and the context after it. -/
def tokenizeLine (ctx : Context) (line : Text) : List Token × Context :=
  match line with
  | [] => ([], ctx.startStatement)
  | _ :: _ =>
    let (tokens, after) := (Lexer.ofLine line ctx).rest
    (tokens, after.context)

/-- A line without the carriage return at its end, if it has one. -/
def stripReturn (line : Text) : Text :=
  if line.getLast? = some '\r' then line.dropLast else line

/-- The lines of a text. -/
def splitLines (text : Text) : List Text :=
  (Text.splitOn '\n' text).map stripReturn

/-- The text of lines. -/
def joinLines (lines : List Text) : Text :=
  ['\n'].intercalate lines

end Highlighter
