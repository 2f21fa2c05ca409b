import Highlighter.Proofs.Text
import Mathlib.Tactic.SplitIfs

/-!
# Characters among bytes

A byte below 128 is a character of its own, and a character beyond begins with another byte
(`utf8EncodeChar_cases`). So what is looked for among the bytes of a text is found where it is among
its characters:

* the bytes of a text begin with those of another only if it begins with that text
  (`bytes_prefix_bytes`), for the first bytes tell the first character;
* as long as all bytes are characters of their own, the places of bytes are those of characters
  (`exists_byte_of_all_isAscii`);
* characters of a class of single bytes may be counted as bytes (`length_takeWhile_bytes`).
-/

namespace Highlighter.Text

variable {s t : Text} {c : Char}

theorem bytes_cons (c : Char) (t : Text) : bytes (c :: t) = String.utf8EncodeChar c ++ bytes t :=
  List.flatMap_cons

/-- The size of a text is the number of its bytes. -/
theorem length_bytes (t : Text) : (bytes t).length = byteLength t := by
  induction t with
  | nil => rfl
  | cons c t ih =>
    rw [bytes_cons, List.length_append, String.length_utf8EncodeChar, ih, byteLength_cons]

/-! ## One character -/

theorem val_ofUInt8 (b : UInt8) : (Char.ofUInt8 b).val.toNat = b.toNat :=
  UInt8.toNat_toUInt32 b

theorem isAscii_of_utf8Size {b : UInt8} (h : (Char.ofUInt8 b).utf8Size = 1) : isAscii b := by
  have hle := UInt32.le_iff_toNat_le.1 (Char.utf8Size_eq_one_iff.1 h)
  rw [val_ofUInt8] at hle
  exact decide_eq_true (UInt8.lt_iff_toNat_lt.2 (Nat.lt_succ_of_le hle))

theorem ofUInt8_ofNat (h : c.toNat ≤ 127) : Char.ofUInt8 (UInt8.ofNat c.toNat) = c := by
  apply Char.ext
  apply UInt32.toNat_inj.1
  rw [val_ofUInt8, UInt8.toNat_ofNat', Nat.mod_eq_of_lt (by omega)]
  rfl

theorem not_isAscii_ofNat {n : Nat} (h : 128 ≤ n) (h' : n < 256) : ¬isAscii (UInt8.ofNat n) := by
  simp only [isAscii, decide_eq_true_eq, UInt8.lt_iff_toNat_lt, UInt8.toNat_ofNat_of_lt' h']
  exact Nat.not_lt_of_le h

/-- A character is a byte below 128, or begins with a byte that is not. -/
theorem utf8EncodeChar_cases (c : Char) :
    (∃ b, String.utf8EncodeChar c = [b] ∧ isAscii b ∧ Char.ofUInt8 b = c) ∨
      (128 ≤ c.toNat ∧ ∃ b more, String.utf8EncodeChar c = b :: more ∧ ¬isAscii b) := by
  by_cases h : c.toNat ≤ 127
  · left
    refine ⟨UInt8.ofNat c.toNat, ?_, ?_, ofUInt8_ofNat h⟩
    · simp [String.utf8EncodeChar, h]
    · simp only [isAscii, decide_eq_true_eq, UInt8.lt_iff_toNat_lt, UInt8.toNat_ofNat']
      exact Nat.lt_of_le_of_lt (Nat.mod_le ..) (Nat.lt_succ_of_le h)
  · right
    have h' : ¬c.val.toNat ≤ 127 := h
    refine ⟨Nat.lt_of_not_le h, ?_⟩
    rw [String.utf8EncodeChar, if_neg h']
    split_ifs <;> exact ⟨_, _, rfl, not_isAscii_ofNat (by omega) (by omega)⟩

/-! ## Many characters -/

/-- The bytes of a text begin with those of another only if it begins with that text. -/
theorem bytes_prefix_bytes : bytes s <+: bytes t ↔ s <+: t := by
  constructor
  · intro h
    induction s generalizing t with
    | nil => exact List.nil_prefix
    | cons c s ih =>
      cases t with
      | nil => exact absurd (List.prefix_nil.1 h) (bytes_ne_nil (List.cons_ne_nil c s))
      | cons d t =>
        obtain ⟨more, hmore⟩ := h
        rw [bytes_cons, bytes_cons, List.append_assoc] at hmore
        -- the first character can be read off the bytes, whatever follows it
        have hc : c = d := by
          have hread := congrArg (fun b : List UInt8 => b.toByteArray.utf8DecodeChar? 0) hmore
          simp only [List.toByteArray_append,
            ByteArray.utf8DecodeChar?_utf8EncodeChar_append] at hread
          exact Option.some.inj hread
        subst hc
        exact List.cons_prefix_cons.2 ⟨rfl, ih ⟨more, List.append_cancel_left hmore⟩⟩
  · rintro ⟨more, rfl⟩
    rw [bytes_append]
    exact List.prefix_append ..

/-- Where all bytes up to a place are characters of their own, the character at this place is the
    byte there. -/
theorem exists_byte_of_all_isAscii {place : Nat} (hlt : place < (bytes t).length)
    (hall : ((bytes t).take (place + 1)).all isAscii) :
    ∃ b, (bytes t)[place]? = some b ∧ t[place]? = some (Char.ofUInt8 b) := by
  induction t generalizing place with
  | nil => exact absurd hlt (Nat.not_lt_zero _)
  | cons c t ih =>
    rw [bytes_cons] at hlt hall ⊢
    rcases utf8EncodeChar_cases c with ⟨b, hb, -, rfl⟩ | ⟨-, b, more, hb, hnot⟩
    · rw [hb, List.singleton_append] at hlt hall ⊢
      cases place with
      | zero => exact ⟨b, rfl, rfl⟩
      | succ place =>
        rw [List.take_succ_cons, List.all_cons, Bool.and_eq_true] at hall
        exact ih (Nat.lt_of_succ_lt_succ hlt) hall.2
    · rw [hb, List.cons_append, List.take_succ_cons, List.all_cons, Bool.and_eq_true] at hall
      exact absurd hall.1 hnot

/-- Characters of a class of single bytes may be counted as bytes. -/
theorem length_takeWhile_bytes {isIn : Char → Bool} {isByte : UInt8 → Bool}
    (hsize : ∀ c, isIn c → c.utf8Size = 1) (h : ∀ b, isByte b = isIn (Char.ofUInt8 b)) (t : Text) :
    ((bytes t).takeWhile isByte).length = (t.takeWhile isIn).length := by
  induction t with
  | nil => rfl
  | cons c t ih =>
    rw [bytes_cons]
    rcases utf8EncodeChar_cases c with ⟨b, hb, -, rfl⟩ | ⟨hge, b, more, hb, hnot⟩
    · rw [hb, List.singleton_append]
      by_cases hin : isByte b
      · rw [List.takeWhile_cons_of_pos hin, List.takeWhile_cons_of_pos (h b ▸ hin),
          List.length_cons, List.length_cons, ih]
      · rw [List.takeWhile_cons_of_neg hin, List.takeWhile_cons_of_neg (h b ▸ hin)]
        rfl
    · -- neither the character nor its first byte is in the class
      have hc : ¬isIn c := fun hin =>
        absurd hge (Nat.not_le_of_lt (Nat.lt_succ_of_le (Char.utf8Size_eq_one_iff.1 (hsize c hin))))
      have hbyte : ¬isByte b := fun hin => hnot (isAscii_of_utf8Size (hsize _ (h b ▸ hin)))
      rw [hb, List.cons_append, List.takeWhile_cons_of_neg hbyte, List.takeWhile_cons_of_neg hc]
      rfl

end Highlighter.Text
