import SpeechlyPlugin.Lib.Base128

/-!
# `CodedInputStream` and the writers of `CodedOutputStream`

The stream a message is read from: a buffer, and the chunks its input is going to return.  A limit is a position no read
goes beyond; the part of the buffer behind it is set apart.  `Refresh` fetches the next chunk when the buffer is empty.

A number is read from the buffer at once where it is known to end there, and a byte at a time where it may go on in the
next chunk.
-/

namespace SpeechlyPlugin.Proto

/-- `INT_MAX`, which is also `kint32max`. -/
def INT_MAX : ℕ := 2147483647

/-- `io::CodedInputStream`, but for `last_tag_` and `recursion_budget_`, which are passed along. -/
structure CodedInputStream where
  /-- from `buffer_` to `buffer_end_` -/
  buffer : List UInt8
  /-- the `buffer_size_after_limit_` bytes from `buffer_end_` on -/
  afterLimit : List UInt8
  /-- what `input_->Next` is going to return -/
  input : List (List UInt8)
  totalBytesRead : ℕ
  overflowBytes : ℕ
  legitimateMessageEnd : Bool
  currentLimit : ℕ
  totalBytesLimit : ℕ
  deriving DecidableEq

namespace CodedInputStream

variable (s : CodedInputStream)

/-! ## The buffer and the limits -/

/-- `CurrentPosition`. -/
def currentPosition : ℕ := s.totalBytesRead - (s.buffer.length + s.afterLimit.length)

/-- `Advance`. -/
def advance (amount : ℕ) : CodedInputStream := { s with buffer := s.buffer.drop amount }

/-- `RecomputeBufferLimits`. -/
def recomputeBufferLimits : CodedInputStream :=
  let buffer := s.buffer ++ s.afterLimit
  let closestLimit := min s.currentLimit s.totalBytesLimit
  let afterLimit := if closestLimit < s.totalBytesRead then s.totalBytesRead - closestLimit else 0
  { s with
    buffer := buffer.take (buffer.length - afterLimit)
    afterLimit := buffer.drop (buffer.length - afterLimit) }

/-- `PushLimit`, of a length that is not negative: the old limit, and the stream. -/
def pushLimit (byteLimit : ℕ) : ℕ × CodedInputStream :=
  let currentPosition := s.currentPosition
  if byteLimit ≤ INT_MAX - currentPosition ∧ byteLimit < s.currentLimit - currentPosition then
    (s.currentLimit, { s with currentLimit := currentPosition + byteLimit }.recomputeBufferLimits)
  else (s.currentLimit, s)

/-- `PopLimit`. -/
def popLimit (limit : ℕ) : CodedInputStream :=
  { { s with currentLimit := limit }.recomputeBufferLimits with legitimateMessageEnd := false }

/-- `SetTotalBytesLimit`. -/
def setTotalBytesLimit (totalBytesLimit : ℕ) : CodedInputStream :=
  { s with totalBytesLimit := max s.currentPosition totalBytesLimit }.recomputeBufferLimits

/-- `ConsumedEntireMessage`. -/
def consumedEntireMessage : Bool := s.legitimateMessageEnd

/-- `NextNonEmpty`. -/
def nextNonEmpty : List (List UInt8) → Option (List UInt8 × List (List UInt8))
  | [] => none
  | chunk :: input => if chunk = [] then nextNonEmpty input else some (chunk, input)

/-- `Refresh` between `Next` and `RecomputeBufferLimits`: bytes beyond `INT_MAX` are cut off. -/
def fetch (chunk : List UInt8) (input : List (List UInt8)) : CodedInputStream :=
  if s.totalBytesRead + chunk.length ≤ INT_MAX then
    { s with buffer := chunk, input := input, totalBytesRead := s.totalBytesRead + chunk.length }
  else
    let overflowBytes := s.totalBytesRead + chunk.length - INT_MAX
    { s with
      buffer := chunk.take (chunk.length - overflowBytes), input := input
      totalBytesRead := INT_MAX, overflowBytes := overflowBytes }

/-- `Refresh`; `none` where it returns false. -/
def refresh : Option CodedInputStream :=
  if s.afterLimit ≠ [] ∨ 0 < s.overflowBytes ∨ s.totalBytesRead = s.currentLimit then none
  else (nextNonEmpty s.input).map fun x => (s.fetch x.1 x.2).recomputeBufferLimits

/-- The constructor, on the chunks of `input`: it ends with a `Refresh`. -/
def new (input : List (List UInt8)) : CodedInputStream :=
  let s : CodedInputStream := ⟨[], [], input, 0, 0, false, INT_MAX, INT_MAX⟩
  s.refresh.getD s

/-! ## Numbers -/

/-- The test before a number is read from the buffer at once. -/
def endsInBuffer : Bool := 10 ≤ s.buffer.length || s.buffer.getLast?.any (· < 0x80)

/-- The unrolled loop of `ReadVarint32FromArray`, with `left` bytes to go: `i` bytes have been read. -/
def varint32Rest : (left i : ℕ) → UInt32 → List UInt8 → Option (UInt32 × List UInt8)
  | 0, _, _, _ => none
  | _ + 1, _, _, [] => none
  | left + 1, i, result, b :: ptr =>
    let result := if i < 5 then result + (b.toUInt32 <<< UInt32.ofNat (7 * i)) else result
    if b &&& 0x80 = 0 then some (result, ptr)
    else varint32Rest left (i + 1) (if i < 4 then result - ((0x80 : UInt32) <<< UInt32.ofNat (7 * i)) else result) ptr

/-- `ReadVarint32FromArray`. -/
def readVarint32FromArray (buffer : List UInt8) : Option (UInt32 × List UInt8) :=
  match buffer with
  | [] => none
  | b :: ptr => varint32Rest 9 1 (b.toUInt32 - 0x80) ptr

/-- `DecodeVarint64KnownSize<N>`. -/
def decodeVarint64KnownSize (n : ℕ) (buffer : List UInt8) : UInt64 :=
  (List.range (n - 1)).foldl
    (fun result i => result + ((buffer.getD i 0).toUInt64 - 0x80) <<< UInt64.ofNat (7 * i))
    ((buffer.getD (n - 1) 0).toUInt64 <<< UInt64.ofNat (7 * (n - 1)))

/-- `ReadVarint64FromArray`: the sizes are tried from 2 to 10. -/
def readVarint64FromArray (buffer : List UInt8) : Option (UInt64 × List UInt8) :=
  match (List.range' 2 9).find? fun n => buffer.getD (n - 1) 0x80 < 0x80 with
  | some n => some (decodeVarint64KnownSize n buffer, buffer.drop n)
  | none => none

/-- `while (buffer_ == buffer_end_)` in `ReadVarint64Slow`; a buffer that has been refreshed is not empty. -/
def fill : Option CodedInputStream := if s.buffer = [] then s.refresh else some s

/-- The loop of `ReadVarint64Slow`, with `left` bytes to go: `count` bytes have been read. -/
def varint64Slow : (left count : ℕ) → UInt64 → CodedInputStream → Option (UInt64 × CodedInputStream)
  | 0, _, _, _ => none
  | left + 1, count, result, s => do
    let s ← s.fill
    match s.buffer with
    | [] => none
    | b :: buffer =>
      let result := result ||| ((b &&& 0x7F).toUInt64 <<< UInt64.ofNat (7 * count))
      let s := { s with buffer := buffer }
      if b &&& 0x80 ≠ 0 then varint64Slow left (count + 1) result s else some (result, s)

/-- `ReadVarint64Slow`. -/
def readVarint64Slow : Option (UInt64 × CodedInputStream) := varint64Slow 10 0 0 s

/-- `ReadVarint64Fallback`. -/
def readVarint64Fallback : Option (UInt64 × CodedInputStream) :=
  if s.endsInBuffer then (readVarint64FromArray s.buffer).map fun p => (p.1, { s with buffer := p.2 })
  else s.readVarint64Slow

/-- `ReadVarint64`. -/
def readVarint64 : Option (UInt64 × CodedInputStream) :=
  match s.buffer with
  | b :: _ => if b < 0x80 then some (b.toUInt64, s.advance 1) else s.readVarint64Fallback
  | [] => s.readVarint64Fallback

/-- `ReadVarint32Fallback`. -/
def readVarint32Fallback : Option (UInt32 × CodedInputStream) :=
  if s.endsInBuffer then (readVarint32FromArray s.buffer).map fun p => (p.1, { s with buffer := p.2 })
  else s.readVarint64Fallback.map fun p => (p.1.toUInt32, p.2)

/-- `ReadVarint32`. -/
def readVarint32 : Option (UInt32 × CodedInputStream) :=
  match s.buffer with
  | b :: _ => if b < 0x80 then some (b.toUInt32, s.advance 1) else s.readVarint32Fallback
  | [] => s.readVarint32Fallback

/-- `ReadVarintSizeAsIntFallback`. -/
def readVarintSizeAsIntFallback : Option (ℕ × CodedInputStream) :=
  if s.endsInBuffer then
    match readVarint64FromArray s.buffer with
    | some (temp, buffer) => if INT_MAX < temp.toNat then none else some (temp.toNat, { s with buffer := buffer })
    | none => none
  else
    match s.readVarint64Fallback with
    | some (value, s) => if INT_MAX < value.toNat then none else some (value.toNat, s)
    | none => none

/-- `ReadVarintSizeAsInt`. -/
def readVarintSizeAsInt : Option (ℕ × CodedInputStream) :=
  match s.buffer with
  | b :: _ => if b < 0x80 then some (b.toNat, s.advance 1) else s.readVarintSizeAsIntFallback
  | [] => s.readVarintSizeAsIntFallback

/-! ## Tags -/

/-- `ReadTagSlow`. -/
def readTagSlow : UInt32 × CodedInputStream :=
  match s.fill with
  | none =>
    let currentPosition := s.totalBytesRead - s.afterLimit.length
    (0, { s with
      legitimateMessageEnd :=
        if s.totalBytesLimit ≤ currentPosition then s.currentLimit == s.totalBytesLimit else true })
  | some s =>
    match s.readVarint64 with
    | some (result, s) => (result.toUInt32, s)
    | none => (0, s)

/-- `ReadTagFallback`. -/
def readTagFallback : UInt32 × CodedInputStream :=
  if s.endsInBuffer then
    if s.buffer.head? = some 0 then (0, s.advance 1)
    else
      match readVarint32FromArray s.buffer with
      | some (tag, buffer) => (tag, { s with buffer := buffer })
      | none => (0, s)
  else if s.buffer = [] ∧ (s.afterLimit ≠ [] ∨ s.totalBytesRead = s.currentLimit) ∧
      s.totalBytesRead - s.afterLimit.length < s.totalBytesLimit then
    (0, { s with legitimateMessageEnd := true })
  else s.readTagSlow

/-- `ReadTag`. -/
def readTag : UInt32 × CodedInputStream :=
  match s.buffer with
  | b :: _ => if b < 0x80 then (b.toUInt32, s.advance 1) else s.readTagFallback
  | [] => s.readTagFallback

/-- `ReadTagWithCutoffNoLastTag(127)`. -/
def readTagWithCutoff : (UInt32 × Bool) × CodedInputStream :=
  match s.buffer with
  | b :: _ =>
    if 0 < b ∧ b < 0x80 then ((b.toUInt32, true), s.advance 1)
    else ((s.readTagFallback.1, s.readTagFallback.1 - 1 < 127), s.readTagFallback.2)
  | [] => ((s.readTagFallback.1, s.readTagFallback.1 - 1 < 127), s.readTagFallback.2)

/-! ## Bytes -/

/-- The loop of `ReadStringFallback` and `InternalReadRawInline`; it ends, since each `Refresh` takes a chunk. -/
def readRawLoop : (chunks : ℕ) → ℕ → CodedInputStream → Option (List UInt8 × CodedInputStream)
  | chunks, size, s =>
    if s.buffer.length < size then
      match chunks, (s.advance s.buffer.length).refresh with
      | chunks + 1, some t => (readRawLoop chunks (size - s.buffer.length) t).map fun p => (s.buffer ++ p.1, p.2)
      | _, _ => none
    else some (s.buffer.take size, s.advance size)

/-- `ReadRaw`, and `ReadString` of a length that is not negative. -/
def readRaw (size : ℕ) : Option (List UInt8 × CodedInputStream) := readRawLoop s.input.length size s

end CodedInputStream

end SpeechlyPlugin.Proto
