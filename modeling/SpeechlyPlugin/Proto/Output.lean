import SpeechlyPlugin.Proto.Wire

/-!
# The memory of a message that is sent: `ProtoBufferWriter` and `CodedOutputStream`

gRPC gives out the memory of a message in slices, and a `CodedOutputStream` fills them.  What a method of a message writes is
a list of calls of the stream, where a message inside a message is written into the buffer at once if there is room for it.

A byte of a slice is `none` as long as nothing has been written there.
-/

namespace SpeechlyPlugin.Proto

/-- What can go wrong while a message is written. -/
inductive OutputFault where
  /-- a `GPR_CODEGEN_ASSERT` fails -/
  | assertFailed
  /-- a `GOOGLE_CHECK` fails, or the size of a message and the number of its bytes differ -/
  | checkFailed
  /-- bytes are written behind the end of the buffer -/
  | outOfBounds
  /-- a number is greater than `INT_MAX` -/
  | overflow
  /-- the loop of `WriteRaw` goes on forever -/
  | endless

/-- `GRPC_SLICE_INLINED_SIZE`, where pointers have eight bytes. -/
def GRPC_SLICE_INLINED_SIZE : ℕ := 23

def kProtoBufferWriterMaxBufferLength : ℕ := 1024 * 1024

/-! ## Slices -/

/-- `ProtoBufferWriter`. -/
structure ProtoBufferWriter where
  blockSize : ℕ
  totalSize : ℕ
  byteCount : ℕ
  /-- the slice buffer; its last slice is `slice_` -/
  slices : List (List (Option UInt8))
  /-- `backup_slice_`, where `have_backup_` -/
  backup : Option (List (Option UInt8))

namespace ProtoBufferWriter

/-- The constructor. -/
def new (blockSize totalSize : ℕ) : ProtoBufferWriter := ⟨blockSize, totalSize, 0, [], none⟩

variable (w : ProtoBufferWriter)

/-- The slice `Next` gives out when `remain` bytes are still needed: the backup, or a new one, which must not be inlined. -/
def nextSlice (remain : ℕ) : List (Option UInt8) :=
  match w.backup with
  | some slice => if remain < slice.length then slice.take remain else slice
  | none =>
    let allocateLength := if w.blockSize < remain then w.blockSize else remain
    List.replicate (if GRPC_SLICE_INLINED_SIZE < allocateLength then allocateLength else GRPC_SLICE_INLINED_SIZE + 1) none

/-- `Next`: the size of the slice. -/
def next : Except OutputFault (ℕ × ProtoBufferWriter) :=
  if w.totalSize ≤ w.byteCount then .error .assertFailed
  else
    let slice := w.nextSlice (w.totalSize - w.byteCount)
    if INT_MAX < slice.length then .error .assertFailed
    else .ok (slice.length,
      { w with byteCount := w.byteCount + slice.length, slices := w.slices ++ [slice], backup := none })

/-- `BackUp`; `refcounted` says of which lengths `grpc_slice_split_tail` returns a slice with a reference count. -/
def backUp (refcounted : ℕ → Bool) (count : ℕ) : Except OutputFault ProtoBufferWriter :=
  let slice := w.slices.getLastD []
  if slice.length < count then .error .assertFailed
  else
    let split := slice.length - count
    .ok { w with
      byteCount := w.byteCount - count
      slices := w.slices.dropLast ++ if split = 0 then [] else [slice.take split]
      backup := if split = 0 || refcounted count then some (slice.drop split) else none }

/-- Bytes are written into the last slice, where its last `left` bytes begin. -/
def store (left : ℕ) (bytes : List UInt8) : ProtoBufferWriter :=
  { w with
    slices := w.slices.modifyLast fun slice =>
      slice.take (slice.length - left) ++ bytes.map some ++ slice.drop (slice.length - left + bytes.length) }

end ProtoBufferWriter

/-! ## The stream -/

/-- `CodedOutputStream`, without aliasing; `buffer_` points at the last `bufferSize` bytes of the last slice. -/
structure CodedOutputStream where
  output : ProtoBufferWriter
  bufferSize : ℕ
  totalBytes : ℕ

namespace CodedOutputStream

variable (out : CodedOutputStream)

/-- `memcpy`, or a method `ToArray`, at `buffer_`. -/
def copy (bytes : List UInt8) : Except OutputFault CodedOutputStream :=
  if out.bufferSize < bytes.length then .error .outOfBounds
  else .ok { out with output := out.output.store out.bufferSize bytes }

/-- `Advance`. -/
def advance (amount : ℕ) : CodedOutputStream := { out with bufferSize := out.bufferSize - amount }

/-- `Refresh`. -/
def refresh : Except OutputFault CodedOutputStream := do
  let (size, output) ← out.output.next
  if INT_MAX < out.totalBytes + size then .error .overflow else .ok ⟨output, size, out.totalBytes + size⟩

/-- The constructor, which begins with a `Refresh`. -/
def new (output : ProtoBufferWriter) : Except OutputFault CodedOutputStream := refresh ⟨output, 0, 0⟩

/-- `Trim`, and the destructor. -/
def trim (refcounted : ℕ → Bool) : Except OutputFault CodedOutputStream :=
  if 0 < out.bufferSize then do
    let output ← out.output.backUp refcounted out.bufferSize
    return ⟨output, 0, out.totalBytes - out.bufferSize⟩
  else .ok out

/-- `ByteCount`. -/
def byteCount : ℕ := out.totalBytes - out.bufferSize

/-- The loop of `WriteRaw`, for at most `rounds` slices. -/
def writeRawLoop : (rounds : ℕ) → List UInt8 → CodedOutputStream → Except OutputFault CodedOutputStream
  | 0, _, _ => .error .endless
  | rounds + 1, data, out =>
    if out.bufferSize < data.length then do
      let filled ← out.copy (data.take out.bufferSize)
      let refreshed ← filled.refresh
      writeRawLoop rounds (data.drop out.bufferSize) refreshed
    else do
      let filled ← out.copy data
      return filled.advance data.length

/-- `WriteRaw`: no slice is empty. -/
def writeRaw (data : List UInt8) : Except OutputFault CodedOutputStream := writeRawLoop (data.length + 2) data out

/-- Bytes are written at once where there are `room` left, and by `WriteRaw` elsewhere. -/
def writeFast (room : ℕ) (bytes : List UInt8) : Except OutputFault CodedOutputStream :=
  if room ≤ out.bufferSize then do
    let filled ← out.copy bytes
    return filled.advance bytes.length
  else out.writeRaw bytes

end CodedOutputStream

/-! ## What is written -/

/-- A call of the stream. -/
inductive Write where
  /-- `WriteVarint32`, `WriteTag` -/
  | varint32 (value : UInt32)
  /-- `WriteVarint64`, `WriteVarint32SignExtended` -/
  | varint64 (value : UInt64)
  /-- `WriteLittleEndian32`, `WriteLittleEndian64`, of `size` bytes -/
  | littleEndian (size value : ℕ)
  /-- `GOOGLE_CHECK_LE(value.size(), kint32max)` -/
  | checkSize (length : ℕ)
  /-- `WriteRawMaybeAliased` -/
  | raw (bytes : List UInt8)
  /-- `WriteSubMessageMaybeToArray`: the cached size, the bytes of `InternalSerializeWithCachedSizesToArray`, and the calls of
  `SerializeWithCachedSizes` -/
  | message (size : ℕ) (array : List UInt8) (writes : List Write)

mutual

/-- The bytes that a call is to write. -/
def Write.bytes : Write → List UInt8
  | .varint32 value => writeVarint32 value
  | .varint64 value => writeVarint64 value
  | .littleEndian size value => writeLittleEndian size value
  | .checkSize _ => []
  | .raw bytes => bytes
  | .message _ _ writes => bytesOf writes

def bytesOf : List Write → List UInt8
  | [] => []
  | write :: writes => write.bytes ++ bytesOf writes

end

theorem bytesOf_append (a b : List Write) : bytesOf (a ++ b) = bytesOf a ++ bytesOf b := by
  induction a with
  | nil => rfl
  | cons write a ih => rw [List.cons_append, bytesOf, bytesOf, ih, List.append_assoc]

mutual

/-- The two ways to write a message inside a message agree, its size is the number of its bytes, and no text is too long. -/
def Write.Even : Write → Prop
  | .checkSize length => length ≤ INT_MAX
  | .message size array writes => array = bytesOf writes ∧ size = array.length ∧ AllEven writes
  | _ => True

def AllEven : List Write → Prop
  | [] => True
  | write :: writes => write.Even ∧ AllEven writes

end

theorem allEven_append {a b : List Write} : AllEven (a ++ b) ↔ AllEven a ∧ AllEven b := by
  induction a with
  | nil => rw [List.nil_append, AllEven, true_and]
  | cons write a ih => rw [List.cons_append, AllEven, AllEven, ih, and_assoc]

mutual

/-- What a call does. -/
def Write.run : Write → CodedOutputStream → Except OutputFault CodedOutputStream
  | .varint32 value, out => out.writeFast 5 (writeVarint32 value)
  | .varint64 value, out => out.writeFast 10 (writeVarint64 value)
  | .littleEndian size value, out => out.writeFast size (writeLittleEndian size value)
  | .checkSize length, out => if INT_MAX < length then .error .checkFailed else .ok out
  | .raw bytes, out => out.writeRaw bytes
  | .message size array writes, out =>
    -- `GetDirectBufferForNBytesAndAdvance`
    if size ≤ out.bufferSize then do
      let filled ← out.copy array
      return filled.advance size
    else runAll writes out

def runAll : List Write → CodedOutputStream → Except OutputFault CodedOutputStream
  | [], out => .ok out
  | write :: writes, out => do
    let out ← write.run out
    runAll writes out

end

/-- `SerializeUnknownFields`, to a stream. -/
def emitUnknownFields : List UnknownField → List Write
  | [] => []
  | .varint number value :: fields =>
    [.varint32 (makeTag number WIRETYPE_VARINT), .varint64 value] ++ emitUnknownFields fields
  | .fixed32 number value :: fields =>
    [.varint32 (makeTag number WIRETYPE_FIXED32), .littleEndian 4 value.toNat] ++ emitUnknownFields fields
  | .fixed64 number value :: fields =>
    [.varint32 (makeTag number WIRETYPE_FIXED64), .littleEndian 8 value.toNat] ++ emitUnknownFields fields
  | .lengthDelimited number bytes :: fields =>
    [.varint32 (makeTag number WIRETYPE_LENGTH_DELIMITED), .varint32 (UInt32.ofNat bytes.length), .raw bytes] ++
      emitUnknownFields fields
  | .group number inner :: fields =>
    [.varint32 (makeTag number WIRETYPE_START_GROUP)] ++ emitUnknownFields inner ++
      [.varint32 (makeTag number WIRETYPE_END_GROUP)] ++ emitUnknownFields fields

/-- `SerializePartialToCodedStream`, of a message with this size, these bytes and these calls. -/
def serializeToCodedStream (size : ℕ) (array : List UInt8) (writes : List Write) (out : CodedOutputStream) :
    Except OutputFault CodedOutputStream :=
  if size ≤ out.bufferSize then do
    let filled ← out.copy array
    if array.length = size then return filled.advance size else .error .checkFailed
  else do
    let written ← runAll writes out
    if written.byteCount - out.byteCount = size then return written else .error .checkFailed

/-- `GenericSerialize`, of such a message: the slices of the byte buffer. -/
def genericSerialize (refcounted : ℕ → Bool) (size : ℕ) (array : List UInt8) (writes : List Write) :
    Except OutputFault (List (List (Option UInt8))) :=
  if INT_MAX < size then .error .overflow
  else if size ≤ GRPC_SLICE_INLINED_SIZE then
    -- one slice of that size
    if array.length = size then .ok [array.map some] else .error .assertFailed
  else do
    let out ← CodedOutputStream.new (.new kProtoBufferWriterMaxBufferLength size)
    let out ← serializeToCodedStream size array writes out
    let out ← out.trim refcounted
    return out.output.slices

end SpeechlyPlugin.Proto
