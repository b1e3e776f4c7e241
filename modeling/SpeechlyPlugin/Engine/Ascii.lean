import SpeechlyPlugin.Engine.Text
import Mathlib.Data.List.TakeWhile

/-!
# ASCII

What the conversions between `std::string` and `FString` keep.  On ASCII both ways keep everything; a string that comes
from `const char*` is always ASCII, so nothing else survives a trip through UTF-8.
-/

namespace SpeechlyPlugin.Engine

variable {c d s : StdString} {t : FString}

/-- The byte of an ASCII character. -/
def toByte (x : Char) : UInt8 := UInt8.ofNat x.toNat

theorem toNat_toByte {x : Char} (hx : x.toNat < 128) : (toByte x).toNat = x.toNat :=
  UInt8.toNat_ofNat_of_lt' (hx.trans (by decide))

theorem forall_byte {P : UInt8 → Prop} (h : ∀ n : Fin 256, P (UInt8.ofNat n)) (b : UInt8) : P b := by
  have := h ⟨b.toNat, b.toNat_lt⟩
  rwa [UInt8.ofNat_toNat] at this

/-! ## Case -/

theorem toByte_ofByte {b : UInt8} (hb : b < 128) : toByte (FString.ofByte b) = b :=
  forall_byte (P := fun b => b < 128 → toByte (FString.ofByte b) = b) (by decide +kernel) b hb

theorem toLower_ofByte {b : UInt8} (hb : b < 128) : (FString.ofByte b).toLower = FString.ofByte (lowerByte b) :=
  forall_byte (P := fun b => b < 128 → (FString.ofByte b).toLower = FString.ofByte (lowerByte b)) (by decide +kernel) b hb

theorem lowerByte_lt {b : UInt8} (hb : b < 128) : lowerByte b < 128 :=
  forall_byte (P := fun b => b < 128 → lowerByte b < 128) (by decide +kernel) b hb

/-- The two strings of bytes are equal up to the case of ASCII letters. -/
def EqIgnoreCase (c d : StdString) : Prop := c.map lowerByte = d.map lowerByte

instance (c d : StdString) : Decidable (EqIgnoreCase c d) := inferInstanceAs (Decidable (_ = _))

namespace FString

theorem chars_ofCStr (hc : Engine.IsAscii c) : (ofCStr c).chars = c.map ofByte := by
  unfold ofCStr
  rw [List.takeWhile_eq_self_iff.mpr fun b hb => decide_eq_true (UInt8.pos_iff_ne_zero.mp (hc b hb).1)]

/-- What the engine compares of an ASCII string is the string in lower case. -/
theorem fold_ofCStr (hc : Engine.IsAscii c) : (ofCStr c).fold = (c.map lowerByte).map ofByte := by
  rw [fold, chars_ofCStr hc, List.map_map, List.map_map]
  exact List.map_congr_left fun b hb => toLower_ofByte (hc b hb).2

/-- **ASCII strings** are the same for the engine when their bytes are, up to case. -/
theorem ofCStr_equiv_iff (hc : Engine.IsAscii c) (hd : Engine.IsAscii d) : ofCStr c ≈ ofCStr d ↔ EqIgnoreCase c d := by
  rw [equiv_iff, fold_ofCStr hc, fold_ofCStr hd]
  constructor
  · intro h
    have hback : ∀ s : StdString, Engine.IsAscii s → ((s.map lowerByte).map ofByte).map toByte = s.map lowerByte := by
      intro s hs
      rw [List.map_map, List.map_map]
      exact List.map_congr_left fun b hb => toByte_ofByte (lowerByte_lt (hs b hb).2)
    rw [EqIgnoreCase, ← hback c hc, ← hback d hd, h]
  · intro h
    rw [h]

/-! ## UTF-8 -/

theorem isAscii_ofByte {b : UInt8} (hb : b ≠ 0) : 0 < (ofByte b).toNat ∧ (ofByte b).toNat < 128 :=
  forall_byte (P := fun b => b ≠ 0 → 0 < (ofByte b).toNat ∧ (ofByte b).toNat < 128) (by decide +kernel) b hb

/-- The conversion from `const char*` gives nothing but ASCII. -/
theorem isAscii_ofCStr (s : StdString) : (ofCStr s).IsAscii := by
  intro x hx
  obtain ⟨b, hb, rfl⟩ := List.mem_map.mp hx
  exact isAscii_ofByte (by simpa using List.mem_takeWhile_imp hb)

theorem utf8EncodeChar_of_lt {x : Char} (hx : x.toNat < 128) : String.utf8EncodeChar x = [toByte x] := by
  have hsize : x.utf8Size = 1 := by
    rw [Char.utf8Size_eq_one_iff, UInt32.le_iff_toNat_le]
    exact Nat.le_of_lt_succ hx
  rw [String.utf8EncodeChar_eq_singleton hsize]
  rfl

/-- The UTF-8 bytes of ASCII are its characters. -/
theorem toUtf8_of_isAscii (ht : t.IsAscii) : t.toUtf8 = t.chars.map toByte := by
  unfold toUtf8
  rw [List.takeWhile_eq_self_iff.mpr fun x hx => decide_eq_true (Nat.pos_iff_ne_zero.mp (ht x hx).1),
    List.map_eq_flatMap]
  exact List.flatMap_congr fun x hx => utf8EncodeChar_of_lt (ht x hx).2

theorem ofByte_toByte {x : Char} (hx : x.toNat < 128) : ofByte (toByte x) = x := by
  have hlt : toByte x < 128 := by
    rw [UInt8.lt_iff_toNat_lt, toNat_toByte hx]
    exact hx
  rw [ofByte, if_pos hlt, toNat_toByte hx, Char.ofNat_toNat]

/-- **Encoded and read back** a text is the same exactly when it is ASCII. -/
theorem ofCStr_toUtf8_iff : ofCStr t.toUtf8 = t ↔ t.IsAscii := by
  constructor
  · intro h
    rw [← h]
    exact isAscii_ofCStr _
  · intro ht
    have hascii : Engine.IsAscii (t.chars.map toByte) := by
      intro b hb
      obtain ⟨x, hx, rfl⟩ := List.mem_map.mp hb
      obtain ⟨hpos, hlt⟩ := ht x hx
      rw [UInt8.lt_iff_toNat_lt, UInt8.lt_iff_toNat_lt, toNat_toByte hlt]
      exact ⟨hpos, hlt⟩
    have hback : (t.chars.map toByte).map ofByte = t.chars := by
      rw [List.map_map]
      exact (List.map_congr_left fun x hx => ofByte_toByte (ht x hx).2).trans (List.map_id _)
    rw [toUtf8_of_isAscii ht]
    exact congrArg FString.mk ((chars_ofCStr hascii).trans hback)

end FString

end SpeechlyPlugin.Engine
