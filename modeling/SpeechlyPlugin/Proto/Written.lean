import SpeechlyPlugin.Proto.Parse

/-!
# What is written is read

A value, a field and a message that are written are read again, with what follows them left; and they take as many bytes
as their size says.
-/

namespace SpeechlyPlugin.Proto

open Lib

variable {α F G : Type}

/-! ## Numbers -/

/-- The low seven bits with the high bit set. -/
theorem or_128 (c : UInt8) : c ||| 0x80 = UInt8.ofNat (128 + c.toNat % 128) := by
  obtain ⟨c⟩ := c
  revert c
  decide +kernel

/-- **`WriteVarint64ToArray`** writes base 128. -/
theorem writeVarint64_eq (value : UInt64) : writeVarint64 value = Base128.encode value.toNat := by
  induction value using writeVarint64.induct with
  | case1 value hle ih =>
    have hge : 128 ≤ value.toNat := hle
    have hhead : (value ||| 0x80).toUInt8 = UInt8.ofNat (128 + value.toNat % 128) := by
      rw [UInt64.toUInt8_or, show (0x80 : UInt64).toUInt8 = 0x80 from rfl, or_128, UInt64.toNat_toUInt8,
        show value.toNat % 2 ^ 8 % 128 = value.toNat % 128 by omega]
    have htail : (value >>> 7).toNat = value.toNat / 128 := by
      rw [UInt64.toNat_shiftRight, Nat.shiftRight_eq_div_pow]
      rfl
    rw [writeVarint64, if_pos hle, ih, hhead, htail, Base128.encode_large hge]
  | case2 value hle =>
    have hlt : value.toNat < 128 := Nat.not_le.mp hle
    rw [writeVarint64, if_neg hle, Base128.encode_small hlt]
    simp

/-- **`WriteVarint32ToArray`** writes base 128. -/
theorem writeVarint32_eq (value : UInt32) : writeVarint32 value = Base128.encode value.toNat := by
  induction value using writeVarint32.induct with
  | case1 value hle ih =>
    have hge : 128 ≤ value.toNat := hle
    have hhead : (value ||| 0x80).toUInt8 = UInt8.ofNat (128 + value.toNat % 128) := by
      rw [UInt32.toUInt8_or, show (0x80 : UInt32).toUInt8 = 0x80 from rfl, or_128, UInt32.toNat_toUInt8,
        show value.toNat % 2 ^ 8 % 128 = value.toNat % 128 by omega]
    have htail : (value >>> 7).toNat = value.toNat / 128 := by
      rw [UInt32.toNat_shiftRight, Nat.shiftRight_eq_div_pow]
      rfl
    rw [writeVarint32, if_pos hle, ih, hhead, htail, Base128.encode_large hge]
  | case2 value hle =>
    have hlt : value.toNat < 128 := Nat.not_le.mp hle
    rw [writeVarint32, if_neg hle, Base128.encode_small hlt]
    simp

/-- The multiplication by 9/64 divides by 7. -/
theorem log2_mul_nine {l : ℕ} (h : l < 64) : (l * 9 + 73) / 64 = l / 7 + 1 := by
  omega

theorem log2_or_one (n : ℕ) : Nat.log2 (n ||| 1) = Nat.log2 n := by
  by_cases hn : 2 ≤ n
  · have hle : 2 ≤ n ||| 1 := hn.trans Nat.left_le_or
    rw [Nat.log2_def, if_pos hle, Nat.or_div_two, Nat.log2_def n, if_pos hn]
    simp
  · obtain rfl | rfl : n = 0 ∨ n = 1 := by omega
    · decide
    · decide

/-- **`VarintSize64`** is the number of bytes. -/
theorem length_writeVarint64 (value : UInt64) : (writeVarint64 value).length = varintSize64 value := by
  have hlt := value.toNat_lt
  have hlog : Nat.log2 value.toNat < 64 := by
    by_cases h0 : value.toNat = 0
    · rw [h0]
      decide
    · exact (Nat.log2_lt h0).mpr hlt
  rw [writeVarint64_eq, Base128.length_encode, varintSize64, UInt64.toNat_or]
  show _ = (Nat.log2 (value.toNat ||| 1) * 9 + 73) / 64
  rw [log2_or_one, log2_mul_nine hlog]

/-- **`VarintSize32`** is the number of bytes. -/
theorem length_writeVarint32 (value : UInt32) : (writeVarint32 value).length = varintSize32 value := by
  have hlt := value.toNat_lt
  have hlog : Nat.log2 value.toNat < 64 := by
    by_cases h0 : value.toNat = 0
    · rw [h0]
      decide
    · exact (Nat.log2_lt h0).mpr (by omega)
  rw [writeVarint32_eq, Base128.length_encode, varintSize32, UInt32.toNat_or]
  show _ = (Nat.log2 (value.toNat ||| 1) * 9 + 73) / 64
  rw [log2_or_one, log2_mul_nine hlog]

theorem toNat_toUInt32 (value : Int32) :
    (value.toUInt32.toNat : ℤ) = if value.toInt < 0 then value.toInt + 2 ^ 32 else value.toInt := by
  have hcond := BitVec.toInt_eq_toNat_cond value.toBitVec
  have hlt := value.toBitVec.isLt
  rw [show value.toInt = value.toBitVec.toInt from rfl, show value.toUInt32.toNat = value.toBitVec.toNat from rfl]
  split at hcond <;> split <;> omega

theorem toNat_toUInt64 (value : Int64) :
    (value.toUInt64.toNat : ℤ) = if value.toInt < 0 then value.toInt + 2 ^ 64 else value.toInt := by
  have hcond := BitVec.toInt_eq_toNat_cond value.toBitVec
  have hlt := value.toBitVec.isLt
  rw [show value.toInt = value.toBitVec.toInt from rfl, show value.toUInt64.toNat = value.toBitVec.toNat from rfl]
  split at hcond <;> split <;> omega

/-- The low half of a number that was extended is the number. -/
theorem toUInt32_toInt64 (value : Int32) : value.toInt64.toUInt64.toUInt32 = value.toUInt32 := by
  have hwide := toNat_toUInt64 value.toInt64
  have hnarrow := toNat_toUInt32 value
  have hlo := value.le_toInt
  have hhi := value.toInt_lt
  rw [Int32.toInt_toInt64] at hwide
  apply UInt32.toNat_inj.mp
  rw [UInt64.toNat_toUInt32]
  split at hwide <;> omega

/-- A number that is extended takes ten bytes if it is negative. -/
theorem length_writeVarint64_toInt64 (value : Int32) :
    (writeVarint64 value.toInt64.toUInt64).length = varintSize32SignExtended value := by
  have hwide := toNat_toUInt64 value.toInt64
  have hnarrow := toNat_toUInt32 value
  have hlo := value.le_toInt
  rw [Int32.toInt_toInt64] at hwide
  unfold varintSize32SignExtended
  split
  · rename_i hneg
    have hneg' : value.toInt < 0 := Int32.lt_iff_toInt_lt.mp hneg
    rw [if_pos hneg'] at hwide
    have hlog : Nat.log2 value.toInt64.toUInt64.toNat = 63 := by
      have hne : value.toInt64.toUInt64.toNat ≠ 0 := by omega
      exact (Nat.log2_eq_iff hne).mpr ⟨by omega, by omega⟩
    rw [writeVarint64_eq, Base128.length_encode, hlog]
  · rename_i hpos
    have hpos' : ¬value.toInt < 0 := fun hneg => hpos (Int32.lt_iff_toInt_lt.mpr hneg)
    rw [if_neg hpos'] at hwide hnarrow
    have hsame : value.toInt64.toUInt64.toNat = value.toUInt32.toNat := by omega
    rw [← length_writeVarint32, writeVarint64_eq, writeVarint32_eq, hsame]

/-! ## Reads after writes -/

/-- A number that was written is read. -/
theorem readVarint_encode {n : ℕ} (h : n < 2 ^ 64) (rest : List UInt8) :
    Bytes.readVarint ⟨Base128.encode n ++ rest, false⟩ = some (n, ⟨rest, false⟩) := by
  have hlt : n < 128 ^ (9 + 1) := lt_of_lt_of_le h (by norm_num)
  rw [Bytes.readVarint, Base128.decode_encode hlt]
  rfl

theorem readVarint32_write (value : UInt32) (rest : List UInt8) :
    Input.readVarint32 (⟨writeVarint32 value ++ rest, false⟩ : Bytes) = some (value, ⟨rest, false⟩) := by
  have hlt := value.toNat_lt
  simp only [Input.readVarint32]
  rw [writeVarint32_eq, readVarint_encode (by omega)]
  simp

theorem readVarint64_write (value : UInt64) (rest : List UInt8) :
    Input.readVarint64 (⟨writeVarint64 value ++ rest, false⟩ : Bytes) = some (value, ⟨rest, false⟩) := by
  simp only [Input.readVarint64]
  rw [writeVarint64_eq, readVarint_encode value.toNat_lt]
  simp

/-- The low half of a number that was written as one of 64 bits. -/
theorem readVarint32_write64 (value : UInt64) (rest : List UInt8) :
    Input.readVarint32 (⟨writeVarint64 value ++ rest, false⟩ : Bytes) = some (value.toUInt32, ⟨rest, false⟩) := by
  simp only [Input.readVarint32]
  rw [writeVarint64_eq, readVarint_encode value.toNat_lt]
  simp

theorem readVarintSizeAsInt_write {n : ℕ} (h : n ≤ INT_MAX) (rest : List UInt8) :
    Bytes.readVarintSizeAsInt ⟨writeVarint32 (UInt32.ofNat n) ++ rest, false⟩ = some (n, ⟨rest, false⟩) := by
  unfold INT_MAX at h
  have hword : (UInt32.ofNat n).toNat = n := by
    rw [UInt32.toNat_ofNat']
    omega
  rw [Bytes.readVarintSizeAsInt, writeVarint32_eq, hword, readVarint_encode (by omega)]
  simp only [Nat.mod_eq_of_lt (show n < 2 ^ 64 by omega)]
  rw [if_neg (by unfold INT_MAX; omega)]

theorem readRaw_append (bytes rest : List UInt8) :
    Bytes.readRaw ⟨bytes ++ rest, false⟩ bytes.length = some (bytes, ⟨rest, false⟩) := by
  rw [Bytes.readRaw, if_pos (by simp)]
  simp

theorem readBytes_write {bytes : List UInt8} (h : bytes.length ≤ INT_MAX) (rest : List UInt8) :
    readBytes (⟨writeBytes bytes ++ rest, false⟩ : Bytes) = some (bytes, ⟨rest, false⟩) := by
  have hword : (UInt32.ofNat bytes.length).toNat = bytes.length := by
    unfold INT_MAX at h
    rw [UInt32.toNat_ofNat']
    omega
  rw [readBytes, writeBytes, List.append_assoc, readVarint32_write]
  simp only [Option.bind_eq_bind, Option.bind_some, hword]
  rw [if_neg (by omega)]
  exact readRaw_append bytes rest

theorem length_writeBytes (bytes : List UInt8) : (writeBytes bytes).length = lengthDelimitedSize bytes.length := by
  rw [writeBytes, List.length_append, length_writeVarint32, lengthDelimitedSize, Nat.add_comm]

/-! ## Values -/

/-- What is said of a kind of value. -/
structure Scalar.Lawful (S : Scalar α) : Prop where
  agrees : S.Agrees
  steady : S.Steady
  size (a : α) : S.size a = (S.write a).length
  emits (a : α) : bytesOf (S.emits a) = S.write a ∧ (S.size a ≤ INT_MAX → AllEven (S.emits a))
  reads {a : α} (h : S.ok a = true) (hsize : S.size a ≤ INT_MAX) (rest : List UInt8) :
    S.read (⟨S.write a ++ rest, false⟩ : Bytes) = some (a, ⟨rest, false⟩)
  valid {bytes : List UInt8} {a : α} {t : Bytes} (h : S.read (⟨bytes, false⟩ : Bytes) = some (a, t)) : S.ok a = true

theorem Scalar.lawful_int32 : Scalar.int32.Lawful where
  agrees := agrees_int32
  steady := steady_int32
  size value := (length_writeVarint64_toInt64 value).symm
  emits value := ⟨by simp [Scalar.int32, bytesOf, Write.bytes], fun _ => by simp [Scalar.int32, AllEven, Write.Even]⟩
  reads {value} _ _ rest := by
    simp only [Scalar.int32, readVarint32_write64, Option.map_some, toUInt32_toInt64]
    simp
  valid _ := rfl

theorem Scalar.lawful_int64 : Scalar.int64.Lawful where
  agrees := agrees_int64
  steady := steady_int64
  size value := (length_writeVarint64 value.toUInt64).symm
  emits value := ⟨by simp [Scalar.int64, bytesOf, Write.bytes], fun _ => by simp [Scalar.int64, AllEven, Write.Even]⟩
  reads {value} _ _ rest := by
    simp only [Scalar.int64, readVarint64_write, Option.map_some]
    simp
  valid _ := rfl

/-- The size of bytes is at least their number. -/
theorem length_le_of_size {n size : ℕ} (h : lengthDelimitedSize n ≤ size) : n ≤ size := (Nat.le_add_right n _).trans h

/-- A length and the bytes, to a stream. -/
theorem bytesOf_bytes (value : List UInt8) :
    bytesOf [.checkSize value.length, .varint32 (UInt32.ofNat value.length), .raw value] = writeBytes value ∧
      (lengthDelimitedSize value.length ≤ INT_MAX →
        AllEven [.checkSize value.length, .varint32 (UInt32.ofNat value.length), .raw value]) := by
  refine ⟨by simp [bytesOf, Write.bytes, writeBytes], fun hsize => ?_⟩
  simp only [AllEven, Write.Even, and_true]
  exact length_le_of_size hsize

theorem Scalar.lawful_bytes : Scalar.bytes.Lawful where
  agrees := agrees_bytes
  steady := steady_bytes
  size value := (length_writeBytes value).symm
  emits := bytesOf_bytes
  reads _ hsize rest := readBytes_write (length_le_of_size hsize) rest
  valid _ := rfl

theorem Scalar.lawful_string : Scalar.string.Lawful where
  agrees := agrees_string
  steady := steady_string
  size value := (length_writeBytes value).symm
  emits := bytesOf_bytes
  reads {value} h hsize rest := by
    simp only [Scalar.string] at h ⊢
    rw [readBytes_write (length_le_of_size hsize)]
    simp only [Option.bind_eq_bind, Option.bind_some, if_pos h]
  valid {bytes value t} h := by
    obtain ⟨⟨value', u⟩, -, hutf⟩ := Option.bind_eq_some_iff.mp h
    simp only at hutf
    split at hutf
    · rename_i hvalid
      simp only [Option.some.injEq, Prod.mk.injEq] at hutf
      rw [← hutf.1]
      exact hvalid
    · cases hutf

end SpeechlyPlugin.Proto
