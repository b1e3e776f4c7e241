import SpeechlyPlugin.Proto.Input
import Mathlib.Data.Nat.Digits.Defs

/-!
# The wire format: `WireFormatLite`, `WireFormat`, and the writers of `CodedOutputStream`

A message is a sequence of fields, each a tag, the number of the field and its wire type, and a value.  A field that a
message does not know is kept as it was read.

A loop of the source that ends with the bytes is given `fuel`: a number greater than that of the bytes is enough.  The
`recursion_budget_` of the stream is passed down: what is nested deeper fails.
-/

namespace SpeechlyPlugin.Proto

open Lib

/-! ## Numbers and tags -/

/-- `WriteVarint64ToArray`. -/
def writeVarint64 (value : UInt64) : List UInt8 :=
  if 0x80 ≤ value then (value ||| 0x80).toUInt8 :: writeVarint64 (value >>> 7) else [value.toUInt8]
termination_by value.toNat
decreasing_by
  rename_i h
  have hle : 128 ≤ value.toNat := h
  show (value >>> 7).toNat < value.toNat
  rw [UInt64.toNat_shiftRight, Nat.shiftRight_eq_div_pow]
  exact Nat.div_lt_self (by omega) (by decide)

/-- `WriteVarint32ToArray`. -/
def writeVarint32 (value : UInt32) : List UInt8 :=
  if 0x80 ≤ value then (value ||| 0x80).toUInt8 :: writeVarint32 (value >>> 7) else [value.toUInt8]
termination_by value.toNat
decreasing_by
  rename_i h
  have hle : 128 ≤ value.toNat := h
  show (value >>> 7).toNat < value.toNat
  rw [UInt32.toNat_shiftRight, Nat.shiftRight_eq_div_pow]
  exact Nat.div_lt_self (by omega) (by decide)

/-- `VarintSize32`. -/
def varintSize32 (value : UInt32) : ℕ := ((value ||| 1).toNat.log2 * 9 + 73) / 64

/-- `VarintSize64`. -/
def varintSize64 (value : UInt64) : ℕ := ((value ||| 1).toNat.log2 * 9 + 73) / 64

/-- `VarintSize32SignExtended`. -/
def varintSize32SignExtended (value : Int32) : ℕ := if value < 0 then 10 else varintSize32 value.toUInt32

def WIRETYPE_VARINT : UInt32 := 0
def WIRETYPE_FIXED64 : UInt32 := 1
def WIRETYPE_LENGTH_DELIMITED : UInt32 := 2
def WIRETYPE_START_GROUP : UInt32 := 3
def WIRETYPE_END_GROUP : UInt32 := 4
def WIRETYPE_FIXED32 : UInt32 := 5

/-- `MakeTag`. -/
def makeTag (fieldNumber type : UInt32) : UInt32 := (fieldNumber <<< 3) ||| type

/-- `GetTagWireType`. -/
def getTagWireType (tag : UInt32) : UInt32 := tag &&& 7

/-- `GetTagFieldNumber`. -/
def getTagFieldNumber (tag : UInt32) : UInt32 := tag >>> 3

/-- `WriteLittleEndian32ToArray` and `WriteLittleEndian64ToArray`, of `size` bytes. -/
def writeLittleEndian (size value : ℕ) : List UInt8 := (List.range size).map fun i => UInt8.ofNat (value / 256 ^ i)

section

variable {σ : Type} [Input σ]

/-- `ReadLittleEndian32` and `ReadLittleEndian64`, of `size` bytes. -/
def readLittleEndian (size : ℕ) (s : σ) : Option (ℕ × σ) :=
  (Input.readRaw size s).map fun x => (Nat.ofDigits 256 (x.1.map (·.toNat)), x.2)

/-- `ReadBytes`: the length is read as `uint32` and passed as `int`. -/
def readBytes (s : σ) : Option (List UInt8 × σ) := do
  let (length, s) ← Input.readVarint32 s
  if INT_MAX < length.toNat then none else Input.readRaw length.toNat s

end

/-- A length and the bytes. -/
def writeBytes (bytes : List UInt8) : List UInt8 := writeVarint32 (UInt32.ofNat bytes.length) ++ bytes

/-- `LengthDelimitedSize`. -/
def lengthDelimitedSize (length : ℕ) : ℕ := length + varintSize32 (UInt32.ofNat length)

/-! ## Fields that are not known -/

/-- `UnknownField`, and `UnknownFieldSet` as a list. -/
inductive UnknownField where
  | varint (number : UInt32) (value : UInt64)
  | fixed32 (number : UInt32) (value : UInt32)
  | fixed64 (number : UInt32) (value : UInt64)
  | lengthDelimited (number : UInt32) (bytes : List UInt8)
  | group (number : UInt32) (fields : List UnknownField)

/-- The tag a field is written with. -/
def UnknownField.tag : UnknownField → UInt32
  | .varint number _ => makeTag number WIRETYPE_VARINT
  | .fixed32 number _ => makeTag number WIRETYPE_FIXED32
  | .fixed64 number _ => makeTag number WIRETYPE_FIXED64
  | .lengthDelimited number _ => makeTag number WIRETYPE_LENGTH_DELIMITED
  | .group number _ => makeTag number WIRETYPE_START_GROUP

/-- `SerializeUnknownFields`. -/
def serializeUnknownFields : List UnknownField → List UInt8
  | [] => []
  | .varint number value :: fields =>
    writeVarint32 (makeTag number WIRETYPE_VARINT) ++ writeVarint64 value ++ serializeUnknownFields fields
  | .fixed32 number value :: fields =>
    writeVarint32 (makeTag number WIRETYPE_FIXED32) ++ writeLittleEndian 4 value.toNat ++ serializeUnknownFields fields
  | .fixed64 number value :: fields =>
    writeVarint32 (makeTag number WIRETYPE_FIXED64) ++ writeLittleEndian 8 value.toNat ++ serializeUnknownFields fields
  | .lengthDelimited number bytes :: fields =>
    writeVarint32 (makeTag number WIRETYPE_LENGTH_DELIMITED) ++ writeBytes bytes ++ serializeUnknownFields fields
  | .group number inner :: fields =>
    writeVarint32 (makeTag number WIRETYPE_START_GROUP) ++ serializeUnknownFields inner ++
      writeVarint32 (makeTag number WIRETYPE_END_GROUP) ++ serializeUnknownFields fields

/-- `ComputeUnknownFieldsSize`. -/
def computeUnknownFieldsSize : List UnknownField → ℕ
  | [] => 0
  | .varint number value :: fields =>
    varintSize32 (makeTag number WIRETYPE_VARINT) + varintSize64 value + computeUnknownFieldsSize fields
  | .fixed32 number _ :: fields => varintSize32 (makeTag number WIRETYPE_FIXED32) + 4 + computeUnknownFieldsSize fields
  | .fixed64 number _ :: fields => varintSize32 (makeTag number WIRETYPE_FIXED64) + 8 + computeUnknownFieldsSize fields
  | .lengthDelimited number bytes :: fields =>
    varintSize32 (makeTag number WIRETYPE_LENGTH_DELIMITED) + varintSize32 (UInt32.ofNat bytes.length) + bytes.length +
      computeUnknownFieldsSize fields
  | .group number inner :: fields =>
    varintSize32 (makeTag number WIRETYPE_START_GROUP) + computeUnknownFieldsSize inner +
      varintSize32 (makeTag number WIRETYPE_END_GROUP) + computeUnknownFieldsSize fields

/-- A number a field can have. -/
def isFieldNumber (number : UInt32) : Bool := 0 < number && number < 0x20000000

/-- The fields are as they can be read again within a recursion budget. -/
def okUnknownFields : ℕ → List UnknownField → Bool
  | _, [] => true
  | budget, .varint number _ :: fields => isFieldNumber number && okUnknownFields budget fields
  | budget, .fixed32 number _ :: fields => isFieldNumber number && okUnknownFields budget fields
  | budget, .fixed64 number _ :: fields => isFieldNumber number && okUnknownFields budget fields
  | budget, .lengthDelimited number _ :: fields => isFieldNumber number && okUnknownFields budget fields
  | 0, .group _ _ :: _ => false
  | budget + 1, .group number inner :: fields =>
    isFieldNumber number && okUnknownFields budget inner && okUnknownFields (budget + 1) fields

section

variable {σ : Type} [Input σ]

/-- `SkipField`, with the `SkipMessage` of a group: the field that is added to the unknown fields. -/
def skipFieldWith (skipMessage : ℕ → σ → Option ((List UnknownField × UInt32) × σ)) (budget : ℕ) (tag : UInt32) (s : σ) :
    Option (UnknownField × σ) :=
  let number := getTagFieldNumber tag
  if number = 0 then none
  else if getTagWireType tag = WIRETYPE_VARINT then (Input.readVarint64 s).map fun x => (.varint number x.1, x.2)
  else if getTagWireType tag = WIRETYPE_FIXED64 then
    (readLittleEndian 8 s).map fun x => (.fixed64 number (UInt64.ofNat x.1), x.2)
  else if getTagWireType tag = WIRETYPE_LENGTH_DELIMITED then (readBytes s).map fun x => (.lengthDelimited number x.1, x.2)
  else if getTagWireType tag = WIRETYPE_START_GROUP then
    match budget with
    | 0 => none
    | budget + 1 => do
      let ((fields, lastTag), s) ← skipMessage budget s
      if lastTag = makeTag number WIRETYPE_END_GROUP then some (.group number fields, s) else none
  else if getTagWireType tag = WIRETYPE_FIXED32 then
    (readLittleEndian 4 s).map fun x => (.fixed32 number (UInt32.ofNat x.1), x.2)
  else none

/-- `SkipMessage`: the fields, and the tag it has ended with. -/
def skipMessage : ℕ → List UnknownField → ℕ → σ → Option ((List UnknownField × UInt32) × σ)
  | 0, _, _, _ => none
  | fuel + 1, fields, budget, s => do
    let (tag, s) := Input.readTag s
    if tag = 0 ∨ getTagWireType tag = WIRETYPE_END_GROUP then some ((fields, tag), s)
    else
      let (field, s) ← skipFieldWith (skipMessage fuel []) budget tag s
      skipMessage fuel (fields ++ [field]) budget s

/-- `SkipField`. -/
def skipField (fuel budget : ℕ) (tag : UInt32) (s : σ) : Option (UnknownField × σ) :=
  skipFieldWith (skipMessage fuel []) budget tag s

end

end SpeechlyPlugin.Proto
