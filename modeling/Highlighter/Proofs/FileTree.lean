import Highlighter.FileTree
import Highlighter.Proofs.Text

/-!
# A file that was written is found again

After a file is given a content, its path leads to that content (`resolve_putFile`). The path that
is written to may end in nothing that is there yet, and so is located by its steps to an entry, and
the path that is read by all of its steps; these are the same for a path that does not end in a
slash, as the path of a file does not (`entrySteps_eq_steps`). On the way to the file lie only
directories, and a path leads to the same location for as long as these stay what they are
(`KeepsDirectories.locateBy`), as they do if a file is written (`keepsDirectories_put`).
-/

namespace Highlighter

namespace Path

/-- The last step of a path is empty only behind a slash at its end. -/
theorem entrySteps_eq_steps {path : Path} (hne : path ≠ []) (h : path.getLast? ≠ some '/') :
    entrySteps path = steps path := by
  have hlast := Text.getLast?_splitOn_ne hne h
  rw [entrySteps, steps]
  rw [← List.head?_reverse] at hlast
  cases hsteps : (Text.splitOn '/' path).reverse with
  | nil => rw [List.dropWhile_nil, ← hsteps, List.reverse_reverse]
  | cons last others =>
    rw [hsteps] at hlast
    have hnonempty : last ≠ [] := fun heq => hlast (by rw [heq]; rfl)
    rw [List.dropWhile_cons_of_neg (by simpa using hnonempty), ← hsteps, List.reverse_reverse]

end Path

namespace FileTree

variable {tree after : FileTree} {location target stop : Location} {path : Path}
  {steps : List Text} {content : List UInt8}

/-! ## The way to a file -/

theorem ne_nil_of_find?_ne (h : tree.find? target ≠ some .directory) : target ≠ [] := by
  rintro rfl
  exact h rfl

/-- The conditions under which a path is located. -/
theorem locateBy_eq_ok_iff :
    tree.locateBy path steps = .ok stop ↔
      (path.contains '\x00' = false ∧ path ≠ [] ∧ Text.byteLength path ≤ pathLimit) ∧
        tree.follow (if Path.isAbsolute path then [] else tree.current) steps = .ok stop := by
  rw [locateBy]
  by_cases hnul : path.contains '\x00'
  · rw [if_pos hnul, hnul]
    simp
  rw [if_neg hnul]
  by_cases hnil : path = []
  · simp [hnil]
  rw [if_neg hnil]
  by_cases hlong : pathLimit < Text.byteLength path
  · rw [if_pos hlong]
    simp [Nat.not_le_of_lt hlong]
  · rw [if_neg hlong]
    exact (and_iff_right ⟨by simpa using hnul, hnil, Nat.le_of_not_lt hlong⟩).symm

/-- Whatever is a directory stays one. -/
structure KeepsDirectories (tree after : FileTree) : Prop where
  current : after.current = tree.current
  find? : ∀ location, tree.find? location = some .directory → after.find? location = some .directory

namespace KeepsDirectories

theorem refl (tree : FileTree) : tree.KeepsDirectories tree :=
  ⟨rfl, fun _ h => h⟩

theorem trans {between : FileTree} (h : tree.KeepsDirectories between)
    (h' : between.KeepsDirectories after) : tree.KeepsDirectories after :=
  ⟨h'.current.trans h.current, fun location hd => h'.find? location (h.find? location hd)⟩

/-- Steps are taken in directories, and look at nothing else. -/
theorem step {name : Text} (h : tree.KeepsDirectories after)
    (hstep : tree.step location name = .ok stop) : after.step location name = .ok stop := by
  have hdirectory : tree.find? location = some .directory := by
    rw [FileTree.step] at hstep
    split at hstep
    next => cases hstep
    next => cases hstep
    next hfind => exact hfind
  rw [FileTree.step, hdirectory] at hstep
  rw [FileTree.step, h.find? location hdirectory]
  exact hstep

theorem follow (h : tree.KeepsDirectories after) (hfollow : tree.follow location steps = .ok stop) :
    after.follow location steps = .ok stop := by
  induction steps generalizing location with
  | nil => exact hfollow
  | cons name names ih =>
    rw [FileTree.follow] at hfollow ⊢
    cases hstep : tree.step location name with
    | ok next =>
      rw [hstep] at hfollow
      rw [h.step hstep]
      exact ih hfollow
    | error e =>
      rw [hstep] at hfollow
      cases hfollow

theorem locateBy (h : tree.KeepsDirectories after)
    (hlocate : tree.locateBy path steps = .ok stop) : after.locateBy path steps = .ok stop := by
  rw [locateBy_eq_ok_iff] at hlocate ⊢
  rw [h.current]
  exact ⟨hlocate.1, h.follow hlocate.2⟩

end KeepsDirectories

/-- Something put in the place of a file, or where nothing is, keeps all directories. -/
theorem keepsDirectories_put (h : tree.find? target ≠ some .directory) (entry : Entry) :
    tree.KeepsDirectories (tree.put target entry) where
  current := rfl
  find? location hdirectory := by
    have hne : location ≠ target := by
      rintro rfl
      exact h hdirectory
    rw [find?_put _ _ _ _ (ne_nil_of_find?_ne h), if_neg hne, hdirectory]

/-! ## Writing and reading -/

/-- What a file is written to: a place where there is no directory, to which the path leads. -/
theorem exists_of_putFile (h : tree.putFile path content = .ok after) :
    ∃ location, tree.locate path = .ok location ∧ tree.find? location ≠ some .directory ∧
      after = tree.put location (.file content) := by
  rw [putFile] at h
  cases hentry : tree.locateEntry path with
  | error e =>
    rw [hentry] at h
    cases h
  | ok location =>
    have hne : path ≠ [] := by
      rintro rfl
      cases hentry
    rw [hentry] at h
    dsimp only at h
    split at h
    next => cases h
    next hfile =>
      rw [Bool.or_eq_true, not_or] at hfile
      -- no file is written to a path that ends in a slash
      have hslash : path.getLast? ≠ some '/' := fun heq => hfile.2 (by rw [heq]; rfl)
      rw [locateEntry, Path.entrySteps_eq_steps hne hslash] at hentry
      split at h
      next => cases h
      next hfind =>
        obtain rfl := Except.ok.inj h
        exact ⟨location, hentry, hfind, rfl⟩

/-- The path of a file that is written leads to what was written. -/
theorem resolve_putFile (h : tree.putFile path content = .ok after) :
    after.resolve path = .ok (.file content) := by
  obtain ⟨location, hlocate, hfind, rfl⟩ := exists_of_putFile h
  have hafter : (tree.put location (.file content)).locate path = .ok location :=
    (keepsDirectories_put hfind _).locateBy hlocate
  rw [resolve, hafter]
  dsimp only
  rw [find?_put _ _ _ _ (ne_nil_of_find?_ne hfind), if_pos rfl]

/-- Whether a file can be written does not depend on what is written to it. -/
theorem isOk_putFile (tree : FileTree) (path : Path) (content other : List UInt8) :
    (tree.putFile path content).isOk = (tree.putFile path other).isOk := by
  rw [putFile, putFile]
  split
  · rfl
  split
  · rfl
  split <;> rfl

theorem readText_putFile {text : Text} (h : tree.putFile path (Text.bytes text) = .ok after) :
    after.readText path = .ok text := by
  rw [readText, contentOf, resolve_putFile h]
  simp [Text.ofBytes?_bytes]

end FileTree

end Highlighter
