import Mathlib.Data.List.Basic
import Mathlib.Data.Setoid.Basic

/-!
# Engine strings

`std::string` is a list of bytes, `FString` a list of characters.  An `FString` built from `const char*` takes the bytes
up to the first NUL one by one, `?` standing for every byte that is not ASCII; `TCHAR_TO_UTF8` encodes every character in
one to four bytes.  Two `FString`s are the same for the engine, as operands of `==` and as keys of maps and sets, when they
agree up to the case of ASCII letters.
-/

namespace SpeechlyPlugin.Engine

/-- `std::string`. -/
abbrev StdString := List UInt8

/-- ASCII without a NUL. -/
def IsAscii (s : StdString) : Prop := ∀ b ∈ s, 0 < b ∧ b < 128

instance (s : StdString) : Decidable (IsAscii s) := List.decidableBAll (fun b : UInt8 => 0 < b ∧ b < 128) s

/-- An ASCII letter in lower case. -/
def lowerByte (b : UInt8) : UInt8 := if 65 ≤ b ∧ b ≤ 90 then b + 32 else b

/-- `FString`. -/
structure FString where
  chars : List Char
  deriving DecidableEq, Repr

namespace FString

instance : Inhabited FString := ⟨⟨[]⟩⟩

/-- The character of one `ANSICHAR`. -/
def ofByte (b : UInt8) : Char := if b < 128 then Char.ofNat b.toNat else '?'

/-- The conversion from `const char*`, here from `s.c_str()`. -/
def ofCStr (s : StdString) : FString := ⟨(s.takeWhile (· ≠ 0)).map ofByte⟩

/-- `std::string(TCHAR_TO_UTF8(*s))`: UTF-8, up to the first NUL. -/
def toUtf8 (s : FString) : StdString := (s.chars.takeWhile fun c => c.toNat ≠ 0).flatMap String.utf8EncodeChar

/-- ASCII without a NUL. -/
def IsAscii (s : FString) : Prop := ∀ c ∈ s.chars, 0 < c.toNat ∧ c.toNat < 128

instance (s : FString) : Decidable s.IsAscii := List.decidableBAll (fun c : Char => 0 < c.toNat ∧ c.toNat < 128) s.chars

/-- A string literal of the source. -/
def lit (s : String) : FString := ⟨s.toList⟩

def isEmpty (s : FString) : Bool := s.chars.isEmpty

def append (s t : FString) : FString := ⟨s.chars ++ t.chars⟩

/-- What the engine compares. -/
def fold (s : FString) : List Char := s.chars.map Char.toLower

/-- `operator==` of `FString`: equality up to the case of ASCII letters. -/
instance : Setoid FString := Setoid.ker fold

theorem equiv_iff {s t : FString} : s ≈ t ↔ s.fold = t.fold := Iff.rfl

instance : DecidableRel ((· ≈ ·) : FString → FString → Prop) := fun s t => decidable_of_iff (s.fold = t.fold) Iff.rfl

/-- The digits `%i` prints. -/
def printInt (i : ℤ) : List Char :=
  if i < 0 then '-' :: Nat.toDigits 10 i.natAbs else Nat.toDigits 10 i.natAbs

/-- `FString::Printf(TEXT("%s-%i"), *s, i)`. -/
def printKey (s : FString) (i : ℤ) : FString := ⟨s.chars ++ '-' :: printInt i⟩

end FString

end SpeechlyPlugin.Engine
