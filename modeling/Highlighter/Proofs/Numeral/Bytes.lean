import Highlighter.Lexer.Bytes
import Highlighter.Proofs.Cursor
import Highlighter.Proofs.Numeral.Longest
import Highlighter.Proofs.Text.Bytes

/-!
# Numerals in bytes

The characters of a numeral are bytes, so its width may be counted in bytes, and what stands after
its digits may be cut off the text where they end. That is never refused, and gives the width in
characters (`bytesWidth?_eq`).
-/

namespace Highlighter.Numeral

/-! ## Digits -/

theorem isDigitByte_eq (b : UInt8) : isDigitByte b = (Char.ofUInt8 b).isDigit := by
  simp only [isDigitByte, Char.isDigit, ge_iff_le, UInt8.le_iff_toNat_le, UInt32.le_iff_toNat_le,
    Text.val_ofUInt8]
  rfl

theorem isHexDigitByte_eq (b : UInt8) : isHexDigitByte b = isHexDigit (Char.ofUInt8 b) := by
  simp only [isHexDigitByte, isDigitByte_eq, isHexDigit, Char.le_def, UInt8.le_iff_toNat_le,
    UInt32.le_iff_toNat_le, Text.val_ofUInt8]
  rfl

theorem utf8Size_of_isDigit (c : Char) (h : c.isDigit) : c.utf8Size = 1 :=
  utf8Size_of_isHexDigit (by rw [isHexDigit, h, Bool.true_or, Bool.true_or])

theorem byteCount_isDigitByte (text : Text) : byteCount isDigitByte text = digitCount text :=
  Text.length_takeWhile_bytes utf8Size_of_isDigit isDigitByte_eq text

theorem byteCount_isHexDigitByte (text : Text) :
    byteCount isHexDigitByte text = (text.takeWhile isHexDigit).length :=
  Text.length_takeWhile_bytes (fun _ => utf8Size_of_isHexDigit) isHexDigitByte_eq text

/-! ## Widths -/

theorem pointBytesWidth?_eq (text : Text) : pointBytesWidth? text = pointWidth? text := by
  rw [pointBytesWidth?.eq_def]
  split
  next rest =>
    rw [byteCount_isDigitByte]
    rfl
  next h => exact (pointWidth?.eq_2 text h).symm

theorem hexBytesWidth?_eq (text : Text) : hexBytesWidth? text = hexWidth? text := by
  rw [hexBytesWidth?.eq_def]
  split
  next rest =>
    rw [byteCount_isHexDigitByte]
    rfl
  next h => exact (hexWidth?.eq_2 text h).symm

theorem decimalBytesWidth?_eq (text : Text) :
    decimalBytesWidth? text = some (decimalWidth? text) := by
  have hcut := Text.dropBytes?_length_takeWhile utf8Size_of_isDigit text
  rw [decimalBytesWidth?, decimalWidth?, byteCount_isDigitByte]
  rw [← digitCount] at hcut
  cases hcount : digitCount text with
  | zero => rfl
  | succ n =>
    rw [hcount] at hcut
    dsimp only
    rw [hcut, Option.map_some, pointBytesWidth?_eq]

theorem signedBytesWidth?_eq (text : Text) : signedBytesWidth? text = some (signedWidth? text) := by
  fun_cases signedWidth? text with
  | case1 rest => rw [signedBytesWidth?, decimalBytesWidth?_eq, Option.map_some]
  | case2 => simp_all [signedBytesWidth?]

/-- Counted in bytes, the width of a numeral is that in characters. -/
theorem bytesWidth?_eq (expressionStart : Bool) (text : Text) :
    bytesWidth? expressionStart text = some (width? expressionStart text) := by
  rw [bytesWidth?, width?, hexBytesWidth?_eq, signedBytesWidth?_eq, decimalBytesWidth?_eq,
    pointBytesWidth?_eq]
  cases hexWidth? text <;> cases expressionStart <;> cases signedWidth? text <;>
    cases decimalWidth? text <;> rfl

end Highlighter.Numeral
