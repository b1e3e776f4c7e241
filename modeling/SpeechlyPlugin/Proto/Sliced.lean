import SpeechlyPlugin.Proto.Codec
import SpeechlyPlugin.Proto.Reads

/-!
# Parsers do not see the chunks

What holds of every read holds of the parsers made of them: over a `CodedInputStream` and over the bytes it shows they read
the same.
-/

namespace SpeechlyPlugin.Proto

open CodedInputStream

variable {w : Extent} {s : CodedInputStream} {b : Bytes}

/-! ## Bytes and fields that are not known -/

theorem agree_readLittleEndian (size : ℕ) (h : Shows w s b) :
    Agree (Shows w) (readLittleEndian size s) (readLittleEndian size b) :=
  (h.readRaw size).map fun bytes => Nat.ofDigits 256 (bytes.map UInt8.toNat)

theorem agree_readBytes (h : Shows w s b) : Agree (Shows w) (readBytes s) (readBytes b) := by
  refine h.readVarint32.bind fun length s b h => ?_
  simp only
  split
  · exact .none
  · exact h.readRaw _

/-- A `SkipMessage` that agrees: what follows is related unless it has ended with a tag 0. -/
inductive SkipAgree (w : Extent) :
    Option ((List UnknownField × UInt32) × CodedInputStream) → Option ((List UnknownField × UInt32) × Bytes) → Prop where
  | none : SkipAgree w none none
  | some {fields : List UnknownField} {tag : UInt32} {s : CodedInputStream} {b : Bytes} (h : tag ≠ 0 → Shows w s b) :
      SkipAgree w (some ((fields, tag), s)) (some ((fields, tag), b))

theorem makeTag_ne_zero (number : UInt32) : makeTag number WIRETYPE_END_GROUP ≠ 0 := by
  intro h
  have hbit : (makeTag number WIRETYPE_END_GROUP).toNat.testBit 2 = true := by
    rw [makeTag, UInt32.toNat_or, Nat.testBit_or, Bool.or_eq_true]
    exact Or.inr (by decide)
  rw [h] at hbit
  simp at hbit

theorem agree_skipFieldWith {skip : ℕ → CodedInputStream → Option ((List UnknownField × UInt32) × CodedInputStream)}
    {skip' : ℕ → Bytes → Option ((List UnknownField × UInt32) × Bytes)}
    (hskip : ∀ budget s b, Shows w s b → SkipAgree w (skip budget s) (skip' budget b)) (budget : ℕ) (tag : UInt32)
    (h : Shows w s b) : Agree (Shows w) (skipFieldWith skip budget tag s) (skipFieldWith skip' budget tag b) := by
  unfold skipFieldWith
  simp only
  split
  · exact .none
  split
  · exact h.readVarint64.map (UnknownField.varint (getTagFieldNumber tag))
  split
  · exact (agree_readLittleEndian 8 h).map fun value => UnknownField.fixed64 (getTagFieldNumber tag) (UInt64.ofNat value)
  split
  · exact (agree_readBytes h).map (UnknownField.lengthDelimited (getTagFieldNumber tag))
  split
  · rcases budget with _ | budget
    · exact .none
    · have hagree := hskip budget s b h
      simp only [Option.bind_eq_bind]
      generalize skip budget s = x at hagree
      generalize skip' budget b = y at hagree
      cases hagree with
      | none => exact .none
      | some hshows =>
        simp only [Option.bind_some]
        split
        · rename_i hlast
          exact .some (hshows (by rw [hlast]; exact makeTag_ne_zero _))
        · exact .none
  split
  · exact (agree_readLittleEndian 4 h).map fun value => UnknownField.fixed32 (getTagFieldNumber tag) (UInt32.ofNat value)
  · exact .none

theorem agree_skipMessage (fuel : ℕ) (fields : List UnknownField) (budget : ℕ) (h : Shows w s b) :
    SkipAgree w (skipMessage fuel fields budget s) (skipMessage fuel fields budget b) := by
  induction fuel generalizing fields budget s b with
  | zero => exact .none
  | succ fuel ih =>
    have htag := h.readTag
    unfold skipMessage
    simp only [Input.readTag]
    rw [htag.tag]
    split
    · exact .some htag.shows
    · rename_i hgoes
      rw [not_or] at hgoes
      have hfield := agree_skipFieldWith (fun budget s b h => ih [] budget h) budget b.readTag.1 (htag.shows hgoes.1)
      generalize skipFieldWith (skipMessage fuel []) budget b.readTag.1 s.readTag.2 = x at hfield
      generalize skipFieldWith (skipMessage fuel []) budget b.readTag.1 b.readTag.2 = y at hfield
      cases hfield with
      | none => exact .none
      | some hshows => exact ih _ budget hshows

/-- **Fields that are not known.** -/
theorem agree_skipField (fuel budget : ℕ) (tag : UInt32) (h : Shows w s b) :
    Agree (Shows w) (skipField fuel budget tag s) (skipField fuel budget tag b) :=
  agree_skipFieldWith (fun budget _ _ h => agree_skipMessage fuel [] budget h) budget tag h

/-! ## Messages -/

variable {F G α : Type}

/-- The values agree. -/
def Scalar.Agrees (S : Scalar α) : Prop := ∀ w s b, Shows w s b → Agree (Shows w) (S.read s) (S.read b)

/-- The fields agree. -/
def Field.Agrees (f : Field F) : Prop :=
  ∀ fuel budget m w s b, Shows w s b → Agree (Shows w) (f.read fuel budget m s) (f.read fuel budget m b)

theorem Scalar.agrees_int32 : Scalar.int32.Agrees := fun _ _ _ h => h.readVarint32.map UInt32.toInt32

theorem Scalar.agrees_int64 : Scalar.int64.Agrees := fun _ _ _ h => h.readVarint64.map UInt64.toInt64

theorem Scalar.agrees_bytes : Scalar.bytes.Agrees := fun _ _ _ h => agree_readBytes h

theorem Scalar.agrees_string : Scalar.string.Agrees := by
  intro w s b h
  refine (agree_readBytes h).bind fun value s b h => ?_
  simp only
  split
  · exact .some h
  · exact .none

theorem Codec.mem_of_field? {c : Codec F} {tag : UInt32} {f : Field F} (h : c.field? tag = some f) :
    f ∈ c.fields ∧ f.tag = tag :=
  ⟨List.mem_of_find?_eq_some h, by simpa using List.find?_some h⟩

/-- **`MergePartialFromCodedStream`.** -/
theorem Codec.agree_mergePartial (c : Codec F) (hfields : ∀ f ∈ c.fields, f.Agrees) (fuel budget : ℕ) (m : Message F)
    (h : Shows w s b) : Agree (Ends w) (c.mergePartial fuel budget m s) (c.mergePartial fuel budget m b) := by
  induction fuel generalizing m s b with
  | zero => exact .none
  | succ fuel ih =>
    obtain ⟨hvalue, htag⟩ := h.readTagWithCutoff
    unfold Codec.mergePartial
    simp only [Input.readTagWithCutoff, hvalue]
    generalize hfound : (if decide (b.readTag.1 - 1 < 127) = true then c.field? b.readTag.1 else none) = found
    rcases found with _ | f
    · simp only
      split
      · exact .some (htag.ends ‹_›)
      · rename_i hne
        exact (agree_skipField fuel budget _ (htag.shows hne)).bind fun field s b h => ih _ h
    · simp only
      split at hfound
      · rename_i hknown
        have hne : b.readTag.1 ≠ 0 := by
          intro h0
          rw [h0] at hknown
          exact absurd hknown (by decide)
        have hagree := hfields f (mem_of_field? hfound).1 fuel budget m.fields w _ _ (htag.shows hne)
        exact hagree.bind fun _ s b h => ih _ h
      · cases hfound

/-- **`ReadMessage`.** -/
theorem Codec.agree_readMessage (c : Codec F) (hfields : ∀ f ∈ c.fields, f.Agrees) (fuel budget : ℕ) (m : Message F)
    (h : Shows w s b) : Agree (Shows w) (c.readMessage fuel budget m s) (c.readMessage fuel budget m b) := by
  refine h.readVarintSizeAsInt.bind fun length s b h => ?_
  rcases budget with _ | budget
  · exact .none
  · exact h.withLimit (fun w s b h => c.agree_mergePartial hfields fuel budget m h) length

theorem Field.agrees_scalar [DecidableEq α] {S : Scalar α} (hS : S.Agrees) (default : α) (tag : UInt32) (get : F → α)
    (set : F → α → F) : (Field.scalar S default tag get set).Agrees :=
  fun _ _ m w s b h => (hS w s b h).map (set m)

theorem Field.agrees_optional {S : Scalar α} (hS : S.Agrees) (tag : UInt32) (get : F → Option α) (set : F → α → F) :
    (Field.optional S tag get set).Agrees :=
  fun _ _ m w s b h => (hS w s b h).map (set m)

theorem Field.agrees_message {c : Codec G} (hc : ∀ f ∈ c.fields, f.Agrees) (tag : UInt32) (get : F → Option (Message G))
    (set : F → Message G → F) : (Field.message c tag get set).Agrees :=
  fun fuel budget m _ _ _ h => (c.agree_readMessage hc fuel budget ((get m).getD c.new) h).map (set m)

theorem Field.agrees_repeated {c : Codec G} (hc : ∀ f ∈ c.fields, f.Agrees) (tag : UInt32)
    (get : F → List (Message G)) (set : F → List (Message G) → F) : (Field.repeated c tag get set).Agrees :=
  fun fuel budget m _ _ _ h => (c.agree_readMessage hc fuel budget c.new h).map fun n => set m (get m ++ [n])

end SpeechlyPlugin.Proto
