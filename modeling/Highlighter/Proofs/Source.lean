import Highlighter.Source

/-!
# Which inputs can be read

A tree has a text at a path if the path leads to a file whose content is the UTF-8 form of the text
(`FileTree.textAt?`). These are the inputs that can be read: reading answers the text that is there,
and is refused for any other reason, whichever it is (`toOption_readSource`). So what commands
should make of their inputs can be told by the tree alone, without reading.
-/

namespace Highlighter

/-- The text at a path: what the file holds that the path leads to, if that is a text. -/
def FileTree.textAt? (tree : FileTree) (path : Path) : Option Text :=
  match tree.resolve path with
  | .ok (.file content) => Text.ofBytes? content
  | _ => none

/-- An input can be read: there is a text at its path. -/
def isReadable (tree : FileTree) (path : Path) : Bool :=
  (tree.textAt? path).isSome

variable {tree : FileTree} {path : Path} {source : Text}

theorem FileTree.textAt?_eq_some_iff : tree.textAt? path = some source ↔
    ∃ content, tree.resolve path = .ok (.file content) ∧ Text.ofBytes? content = some source := by
  rw [textAt?]
  split
  next content hfile => simp [hfile]
  next hnone =>
    constructor
    · rintro ⟨⟩
    · rintro ⟨content, hfile, -⟩
      exact absurd hfile (hnone content)

theorem readSource_eq_ok_iff : readSource tree path = .ok source ↔
    ∃ content, tree.resolve path = .ok (.file content) ∧ Text.ofBytes? content = some source := by
  rw [readSource, FileTree.pathExists, FileTree.isFile, FileTree.readText, FileTree.contentOf]
  rcases tree.resolve path with e | content | _
  case ok.file =>
    have hok (text : Text) :
        Except.mapError (Failure.inputUnreadable path) (.ok text) = .ok text := rfl
    have herror (e : IoError) : Except.mapError (Failure.inputUnreadable path)
        (.error e : Except IoError Text) = .error (.inputUnreadable path e) := rfl
    cases hsource : Text.ofBytes? content <;>
      simp [hsource, hok, herror, Except.isOk, Except.toBool]
  all_goals simp [Except.isOk, Except.toBool]

/-- Reading answers the text at the path, if there is one. -/
theorem toOption_readSource (tree : FileTree) (path : Path) :
    (readSource tree path).toOption = tree.textAt? path := by
  ext source
  rw [FileTree.textAt?_eq_some_iff, ← readSource_eq_ok_iff]
  cases readSource tree path <;> simp [Except.toOption]

theorem textAt?_of_readSource_ok (h : readSource tree path = .ok source) :
    tree.textAt? path = some source := by
  rw [← toOption_readSource, h]
  rfl

theorem isReadable_of_readSource_ok (h : readSource tree path = .ok source) :
    isReadable tree path := by
  rw [isReadable, textAt?_of_readSource_ok h, Option.isSome_some]

theorem isReadable_of_readSource_error {e : Failure} (h : readSource tree path = .error e) :
    isReadable tree path = false := by
  rw [isReadable, ← toOption_readSource, h]
  rfl

end Highlighter
