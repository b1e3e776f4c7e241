import SpeechlyPlugin.Proto.Output
import SpeechlyPlugin.Proto.Utf8

/-!
# Messages as the generated code reads and writes them

The methods the compiler generates for a message go through its fields.  A field is the tag it is read at, what its case
of `MergePartialFromCodedStream` does, and its parts of the two serializers, `ByteSizeLong` and `MergeFrom`; a message is the
table of its fields in the order of their numbers.

The methods differ only in the kind of a field, and in where the message keeps its value.
-/

namespace SpeechlyPlugin.Proto

/-! ## Values -/

/-- How a value that fills a field is read, and written into an array or to a stream; `ok` says which values are read again as
they were written. -/
structure Scalar (α : Type) where
  read : {σ : Type} → [Input σ] → σ → Option (α × σ)
  write : α → List UInt8
  emits : α → List Write
  size : α → ℕ
  ok : α → Bool

/-- `int32` and the enumerations, which are open. -/
def Scalar.int32 : Scalar Int32 where
  read s := (Input.readVarint32 s).map fun x => (x.1.toInt32, x.2)
  write value := writeVarint64 value.toInt64.toUInt64
  emits value := [.varint64 value.toInt64.toUInt64]
  size value := varintSize32SignExtended value
  ok _ := true

/-- `int64`. -/
def Scalar.int64 : Scalar Int64 where
  read s := (Input.readVarint64 s).map fun x => (x.1.toInt64, x.2)
  write value := writeVarint64 value.toUInt64
  emits value := [.varint64 value.toUInt64]
  size value := varintSize64 value.toUInt64
  ok _ := true

/-- `bytes`. -/
def Scalar.bytes : Scalar (List UInt8) where
  read s := readBytes s
  write value := writeBytes value
  emits value := [.checkSize value.length, .varint32 (UInt32.ofNat value.length), .raw value]
  size value := lengthDelimitedSize value.length
  ok _ := true

/-- `string`: what is read has to be UTF-8. -/
def Scalar.string : Scalar (List UInt8) where
  read s := do
    let (value, s) ← readBytes s
    if isStructurallyValidUTF8 value then some (value, s) else none
  write value := writeBytes value
  emits value := [.checkSize value.length, .varint32 (UInt32.ofNat value.length), .raw value]
  size value := lengthDelimitedSize value.length
  ok value := isStructurallyValidUTF8 value

/-! ## Fields and messages -/

/-- A field of a message with the fields `F`.  The last component is not in the source: it says which values of the field
are read again as they were written, within a recursion budget. -/
structure Field (F : Type) where
  tag : UInt32
  /-- the case of `MergePartialFromCodedStream`, with fuel and the recursion budget -/
  read : {σ : Type} → [Input σ] → ℕ → ℕ → F → σ → Option (F × σ)
  /-- the part of `InternalSerializeWithCachedSizesToArray` -/
  write : F → List UInt8
  /-- the part of `SerializeWithCachedSizes` -/
  emits : F → List Write
  size : F → ℕ
  mergeFrom : F → F → F
  ok : ℕ → F → Bool

/-- A message: its fields, and in `_internal_metadata_` those that are not known. -/
structure Message (F : Type) where
  fields : F
  unknownFields : List UnknownField

/-- The methods of a message: the values the constructor sets, and its fields. -/
structure Codec (F : Type) where
  default : F
  fields : List (Field F)

namespace Codec

variable {F : Type} (c : Codec F)

/-- The constructor, and `Clear`. -/
def new : Message F := ⟨c.default, []⟩

/-- The field that is read at a tag: it is found by its number, no two have the same, and then the whole tag is compared. -/
def field? (tag : UInt32) : Option (Field F) := c.fields.find? (·.tag = tag)

section

variable {σ : Type} [Input σ]

/-- `MergePartialFromCodedStream`. -/
def mergePartial : ℕ → ℕ → Message F → σ → Option (Message F × σ)
  | 0, _, _, _ => none
  | fuel + 1, budget, m, s =>
    let ((tag, known), s) := Input.readTagWithCutoff s
    match if known then c.field? tag else none with
    | some f => f.read fuel budget m.fields s >>= fun x => mergePartial fuel budget { m with fields := x.1 } x.2
    | none =>
      if tag = 0 then some (m, s)
      else skipField fuel budget tag s >>= fun x =>
        mergePartial fuel budget { m with unknownFields := m.unknownFields ++ [x.1] } x.2

/-- `ReadMessage`, into the message `m`. -/
def readMessage (fuel budget : ℕ) (m : Message F) (s : σ) : Option (Message F × σ) := do
  let (length, s) ← Input.readVarintSizeAsInt s
  match budget with
  | 0 => none
  | budget + 1 => Input.withLimit length (c.mergePartial fuel budget m) s

end

/-- `InternalSerializeWithCachedSizesToArray`. -/
def write (m : Message F) : List UInt8 := c.fields.flatMap (·.write m.fields) ++ serializeUnknownFields m.unknownFields

/-- `SerializeWithCachedSizes`. -/
def emits (m : Message F) : List Write := c.fields.flatMap (·.emits m.fields) ++ emitUnknownFields m.unknownFields

/-- `ByteSizeLong`. -/
def size (m : Message F) : ℕ := (c.fields.map (·.size m.fields)).sum + computeUnknownFieldsSize m.unknownFields

/-- `MergeFrom`. -/
def mergeFrom (m source : Message F) : Message F where
  fields := c.fields.foldl (fun a f => f.mergeFrom a source.fields) m.fields
  unknownFields := m.unknownFields ++ source.unknownFields

/-- The fields are as they can be read again, and none of those that are not known has the tag of one. -/
def ok (budget : ℕ) (m : Message F) : Bool :=
  c.fields.all (·.ok budget m.fields) && okUnknownFields budget m.unknownFields &&
    m.unknownFields.all fun u => (c.field? u.tag).isNone

end Codec

/-! ## The kinds of fields -/

namespace Field

variable {F G α : Type}

/-- A field that is written unless it has its default value. -/
def scalar [DecidableEq α] (S : Scalar α) (default : α) (tag : UInt32) (get : F → α) (set : F → α → F) : Field F where
  tag := tag
  read _ _ m s := (S.read s).map fun x => (set m x.1, x.2)
  write m := if get m = default then [] else writeVarint32 tag ++ S.write (get m)
  emits m := if get m = default then [] else [.varint32 tag] ++ S.emits (get m)
  size m := if get m = default then 0 else 1 + S.size (get m)
  mergeFrom m source := if get source = default then m else set m (get source)
  ok _ m := S.ok (get m)

/-- A field that may be absent: one of a `oneof`. -/
def optional (S : Scalar α) (tag : UInt32) (get : F → Option α) (set : F → α → F) : Field F where
  tag := tag
  read _ _ m s := (S.read s).map fun x => (set m x.1, x.2)
  write m :=
    match get m with
    | some value => writeVarint32 tag ++ S.write value
    | none => []
  emits m :=
    match get m with
    | some value => [.varint32 tag] ++ S.emits value
    | none => []
  size m :=
    match get m with
    | some value => 1 + S.size value
    | none => 0
  mergeFrom m source :=
    match get source with
    | some value => set m value
    | none => m
  ok _ m := (get m).all S.ok

/-- `InternalWriteMessageToArray`, without the tag. -/
def writeMessage (c : Codec G) (n : Message G) : List UInt8 := writeVarint32 (UInt32.ofNat (c.size n)) ++ c.write n

/-- `WriteMessageMaybeToArray`, without the tag. -/
def emitMessage (c : Codec G) (n : Message G) : List Write :=
  [.varint32 (UInt32.ofNat (c.size n)), .message (c.size n) (c.write n) (c.emits n)]

/-- A message inside a message takes one of the recursion budget. -/
def okMessage (c : Codec G) (budget : ℕ) (n : Message G) : Bool :=
  match budget with
  | 0 => false
  | budget + 1 => c.ok budget n

/-- A message that may be absent, on its own or one of a `oneof`: it is read into the one that is there. -/
def message (c : Codec G) (tag : UInt32) (get : F → Option (Message G)) (set : F → Message G → F) : Field F where
  tag := tag
  read fuel budget m s := (c.readMessage fuel budget ((get m).getD c.new) s).map fun x => (set m x.1, x.2)
  write m :=
    match get m with
    | some n => writeVarint32 tag ++ writeMessage c n
    | none => []
  emits m :=
    match get m with
    | some n => [.varint32 tag] ++ emitMessage c n
    | none => []
  size m :=
    match get m with
    | some n => 1 + lengthDelimitedSize (c.size n)
    | none => 0
  mergeFrom m source :=
    match get source with
    | some n => set m (c.mergeFrom ((get m).getD c.new) n)
    | none => m
  ok budget m := (get m).all (okMessage c budget)

/-- Messages in a row: one is added for each that is read. -/
def repeated (c : Codec G) (tag : UInt32) (get : F → List (Message G)) (set : F → List (Message G) → F) : Field F where
  tag := tag
  read fuel budget m s := (c.readMessage fuel budget c.new s).map fun x => (set m (get m ++ [x.1]), x.2)
  write m := (get m).flatMap fun n => writeVarint32 tag ++ writeMessage c n
  emits m := (get m).flatMap fun n => [.varint32 tag] ++ emitMessage c n
  size m := ((get m).map fun n => 1 + lengthDelimitedSize (c.size n)).sum
  mergeFrom m source := set m (get m ++ get source)
  ok budget m := (get m).all (okMessage c budget)

end Field

/-! ## Messages over gRPC -/

namespace Codec

variable {F : Type} (c : Codec F)

/-- `CodedInputStream::default_recursion_limit_`. -/
def recursionLimit : ℕ := 100

/-- `GenericDeserialize`, of a byte buffer that is made of `slices`. -/
def deserialize (slices : List (List UInt8)) : Option (Message F) :=
  let decoder := (CodedInputStream.new slices).setTotalBytesLimit INT_MAX
  match c.mergePartial (slices.flatten.length + 1) recursionLimit c.new decoder with
  | some (m, decoder) => if decoder.consumedEntireMessage then some m else none
  | none => none

/-- The bytes that `GenericSerialize` is to give, unless there are more than `INT_MAX`. -/
def serialize (m : Message F) : Option (List UInt8) := if INT_MAX < c.size m then none else some (c.write m)

/-- `GenericSerialize`. -/
def genericSerialize (refcounted : ℕ → Bool) (m : Message F) : Except OutputFault (List (List (Option UInt8))) :=
  Proto.genericSerialize refcounted (c.size m) (c.write m) (c.emits m)

end Codec

end SpeechlyPlugin.Proto
