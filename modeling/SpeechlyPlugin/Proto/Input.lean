import SpeechlyPlugin.Proto.CodedStream

/-!
# What a parser reads from

The parsers are written once, over any type with the reads of `CodedInputStream`.  The stream itself is one instance; the
other is the list of the bytes that are left up to the limit, on which the parsers are studied.
-/

namespace SpeechlyPlugin.Proto

open Lib

/-- The reads of `CodedInputStream`; a read that fails gives nothing. -/
class Input (σ : Type) where
  readTag : σ → UInt32 × σ
  readTagWithCutoff : σ → (UInt32 × Bool) × σ
  readVarint32 : σ → Option (UInt32 × σ)
  readVarint64 : σ → Option (UInt64 × σ)
  readVarintSizeAsInt : σ → Option (ℕ × σ)
  readRaw : ℕ → σ → Option (List UInt8 × σ)
  /-- `PushLimit`, a parser, the test of `ConsumedEntireMessage`, and `PopLimit` -/
  withLimit {α : Type} : ℕ → (σ → Option (α × σ)) → σ → Option (α × σ)
  consumedEntireMessage : σ → Bool

/-- `CodedInputStream` between `PushLimit` and `PopLimit`. -/
def CodedInputStream.withLimit {α : Type} (byteLimit : ℕ) (parse : CodedInputStream → Option (α × CodedInputStream))
    (s : CodedInputStream) : Option (α × CodedInputStream) := do
  let (limit, s) := s.pushLimit byteLimit
  let (a, s) ← parse s
  if s.consumedEntireMessage then some (a, s.popLimit limit) else none

instance : Input CodedInputStream where
  readTag := CodedInputStream.readTag
  readTagWithCutoff := CodedInputStream.readTagWithCutoff
  readVarint32 := CodedInputStream.readVarint32
  readVarint64 := CodedInputStream.readVarint64
  readVarintSizeAsInt := CodedInputStream.readVarintSizeAsInt
  readRaw size s := s.readRaw size
  withLimit := CodedInputStream.withLimit
  consumedEntireMessage := CodedInputStream.consumedEntireMessage

/-! ## The bytes up to the limit -/

/-- The bytes that are left up to the limit, and whether a tag has been looked for where there were none. -/
structure Bytes where
  bytes : List UInt8
  ended : Bool
  deriving DecidableEq

namespace Bytes

variable (s : Bytes)

/-- A number of at most ten bytes. -/
def readVarint : Option (ℕ × Bytes) := (Base128.decode 10 s.bytes).map fun x => (x.1, { s with bytes := x.2 })

def readTag : UInt32 × Bytes :=
  match s.bytes with
  | [] => (0, { s with ended := true })
  | _ :: _ =>
    match s.readVarint with
    | some (n, s) => (UInt32.ofNat n, s)
    | none => (0, s)

def readVarintSizeAsInt : Option (ℕ × Bytes) :=
  match s.readVarint with
  | some (n, s) => if INT_MAX < n % 2 ^ 64 then none else some (n % 2 ^ 64, s)
  | none => none

def readRaw (size : ℕ) : Option (List UInt8 × Bytes) :=
  if size ≤ s.bytes.length then some (s.bytes.take size, { s with bytes := s.bytes.drop size }) else none

def withLimit {α : Type} (byteLimit : ℕ) (parse : Bytes → Option (α × Bytes)) : Option (α × Bytes) := do
  let (a, t) ← parse { s with bytes := s.bytes.take byteLimit }
  if t.ended then some (a, ⟨t.bytes ++ s.bytes.drop byteLimit, false⟩) else none

end Bytes

instance : Input Bytes where
  readTag := Bytes.readTag
  readTagWithCutoff s := ((s.readTag.1, s.readTag.1 - 1 < 127), s.readTag.2)
  readVarint32 s := s.readVarint.map fun x => (UInt32.ofNat x.1, x.2)
  readVarint64 s := s.readVarint.map fun x => (UInt64.ofNat x.1, x.2)
  readVarintSizeAsInt := Bytes.readVarintSizeAsInt
  readRaw size s := s.readRaw size
  withLimit n parse s := s.withLimit n parse
  consumedEntireMessage := Bytes.ended

end SpeechlyPlugin.Proto
