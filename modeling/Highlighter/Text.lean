/-!
# Text

A *text* is a list of characters. Positions in a text are counted in bytes of its
UTF-8 form, so the position of a character is the sum of the sizes of the
characters before it, and a number of bytes marks a place in a text only if it
falls between two characters.

* `Text.byteLength`: the size of a text in bytes;
* `Text.dropBytes?`, `Text.takeBytes?`, `Text.slice?`: cutting a text at byte
  positions, refused inside a character or past the end;
* `Text.bytes`, `Text.ofBytes?`: the UTF-8 form of a text and its reading, of
  which the second undoes the first (`ofBytes?_bytes`);
* `Text.splitOn`: the pieces of a text between the occurrences of a character.
-/

namespace Highlighter

/-- A text: its characters, in order. -/
abbrev Text := List Char

namespace Text

/-- The size of the UTF-8 form of a text. -/
def byteLength : Text → Nat
  | [] => 0
  | c :: rest => c.utf8Size + byteLength rest

@[simp] theorem byteLength_nil : byteLength [] = 0 := rfl

@[simp] theorem byteLength_cons (c : Char) (t : Text) :
    byteLength (c :: t) = c.utf8Size + byteLength t := rfl

@[simp] theorem byteLength_append (s t : Text) :
    byteLength (s ++ t) = byteLength s + byteLength t := by
  induction s with
  | nil => simp
  | cons c s ih => simp [ih, Nat.add_assoc]

theorem byteLength_reverse (t : Text) : byteLength t.reverse = byteLength t := by
  induction t with
  | nil => rfl
  | cons c t ih => simp [ih, Nat.add_comm]

/-! ### Cutting at byte positions -/

/-- The text without its first `n` bytes, if they are whole characters of it. -/
def dropBytes? : Nat → Text → Option Text
  | 0, t => some t
  | _ + 1, [] => none
  | n + 1, c :: rest =>
    if c.utf8Size ≤ n + 1 then dropBytes? (n + 1 - c.utf8Size) rest else none

/-- No byte is lost by a cut. -/
theorem byteLength_of_dropBytes? {n : Nat} {t rest : Text} (h : dropBytes? n t = some rest) :
    byteLength t = n + byteLength rest := by
  fun_induction dropBytes? n t with
  | case1 t => rw [Option.some.inj h, Nat.zero_add]
  | case2 n => cases h
  | case3 n c t hc ih =>
    rw [byteLength_cons, ih h]
    omega
  | case4 n c t hc => cases h

/-- The first `n` bytes of the text, if they are whole characters of it. -/
def takeBytes? : Nat → Text → Option Text
  | 0, _ => some []
  | _ + 1, [] => none
  | n + 1, c :: rest =>
    if c.utf8Size ≤ n + 1 then (takeBytes? (n + 1 - c.utf8Size) rest).map (c :: ·) else none

/-- The part of the text from byte `start` up to byte `stop`, if both fall between
    characters of it and are in order. -/
def slice? (start stop : Nat) (t : Text) : Option Text :=
  if start ≤ stop then (dropBytes? start t).bind (takeBytes? (stop - start)) else none

/-! ### The UTF-8 form -/

/-- The UTF-8 form of a text. -/
def bytes (t : Text) : List UInt8 :=
  t.flatMap String.utf8EncodeChar

/-- The text whose UTF-8 form is given, if it is the form of a text at all. -/
def ofBytes? (b : List UInt8) : Option Text :=
  b.toByteArray.utf8Decode?.map Array.toList

/-- A byte that is a character of its own. -/
def isAscii (b : UInt8) : Bool :=
  b < 0x80

theorem bytes_ne_nil {t : Text} (h : t ≠ []) : bytes t ≠ [] := by
  obtain ⟨c, t, rfl⟩ := List.exists_cons_of_ne_nil h
  rw [bytes, List.flatMap_cons]
  exact List.append_ne_nil_of_left_ne_nil String.utf8EncodeChar_ne_nil _

/-- Reading a written text gives it back. -/
theorem ofBytes?_bytes (t : Text) : ofBytes? (bytes t) = some t := by
  have h : (bytes t).toByteArray = t.utf8Encode := rfl
  simp [ofBytes?, h, List.utf8Decode?_utf8Encode]

/-! ### Pieces -/

/-- The pieces of a text between the occurrences of a separator: one more than it
    has separators. -/
def splitOn (separator : Char) : Text → List Text
  | [] => [[]]
  | c :: rest =>
    if c = separator then [] :: splitOn separator rest
    else
      match splitOn separator rest with
      | [] => [[c]]
      | piece :: pieces => (c :: piece) :: pieces

/-- The decimal digits of a number. -/
def ofNat (n : Nat) : Text := Nat.toDigits 10 n

end Text

end Highlighter
