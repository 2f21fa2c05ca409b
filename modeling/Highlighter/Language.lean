import Highlighter.Character

/-!
# Editing facts

What an editor should know about Raven beyond the colours of tokens.
-/

namespace Highlighter

/-- Facts about a language that help to edit it. -/
structure Language where
  /-- What begins a comment that ends with the line. -/
  lineComment : Text
  /-- The characters after which an editor adds the closing partner. -/
  autoClose : List Char

/-- The facts about Raven. -/
def raven : Language where
  lineComment := [commentMark]
  autoClose := ['(', '[', '{', '"', '`']

end Highlighter
