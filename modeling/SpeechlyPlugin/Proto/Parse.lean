import SpeechlyPlugin.Proto.Sliced

/-!
# Parsers without fuel

On the bytes up to the limit a parser reads one field after the other until there are none left.  Any fuel beyond the number
of bytes gives the same result; `Codec.parse` is that result, and `Codec.parse_eq` says how it comes about.
-/

namespace SpeechlyPlugin.Proto

open Lib

variable {α β F G : Type} {bytes : List UInt8}

/-! ## What a parser leaves -/

/-- A parser of `bytes` leaves no more than there was, and has not looked beyond the end. -/
def Takes (bytes : List UInt8) (x : Option (α × Bytes)) : Prop :=
  ∀ a t, x = some (a, t) → t.ended = false ∧ t.bytes.length ≤ bytes.length

theorem takes_none : Takes bytes (none : Option (α × Bytes)) := by
  intro a t h
  cases h

theorem Takes.map {x : Option (α × Bytes)} (h : Takes bytes x) (f : α → β) : Takes bytes (x.map fun p => (f p.1, p.2)) := by
  intro a t ht
  obtain ⟨⟨a', t'⟩, hx, heq⟩ := Option.map_eq_some_iff.mp ht
  simp only [Prod.mk.injEq] at heq
  rw [← heq.2]
  exact h a' t' hx

theorem Takes.bind {x : Option (α × Bytes)} {f : α × Bytes → Option (β × Bytes)} (h : Takes bytes x)
    (hf : ∀ a rest, rest.length ≤ bytes.length → Takes rest (f (a, ⟨rest, false⟩))) : Takes bytes (x >>= f) := by
  intro b u hu
  obtain ⟨⟨a, t⟩, hx, hfx⟩ := Option.bind_eq_some_iff.mp hu
  obtain ⟨rest, ended⟩ := t
  obtain ⟨hended, hlen⟩ := h a _ hx
  simp only at hended hlen
  subst hended
  obtain ⟨huended, hulen⟩ := hf a rest hlen b u hfx
  exact ⟨huended, hulen.trans hlen⟩

theorem takes_readVarint : Takes bytes (Bytes.readVarint ⟨bytes, false⟩) := by
  intro n t h
  obtain ⟨⟨m, rest⟩, hdecode, heq⟩ := Option.map_eq_some_iff.mp h
  simp only [Prod.mk.injEq] at heq
  rw [← heq.2]
  exact ⟨rfl, (Base128.decode_length hdecode).le⟩

theorem takes_readRaw (size : ℕ) : Takes bytes (Bytes.readRaw ⟨bytes, false⟩ size) := by
  intro a t h
  unfold Bytes.readRaw at h
  split at h
  · simp only [Option.some.injEq, Prod.mk.injEq] at h
    rw [← h.2]
    refine ⟨rfl, ?_⟩
    rw [List.length_drop]
    exact Nat.sub_le _ _
  · cases h

theorem takes_readVarint32 : Takes bytes (Input.readVarint32 (⟨bytes, false⟩ : Bytes)) := takes_readVarint.map UInt32.ofNat

theorem takes_readVarint64 : Takes bytes (Input.readVarint64 (⟨bytes, false⟩ : Bytes)) := takes_readVarint.map UInt64.ofNat

theorem takes_readVarintSizeAsInt : Takes bytes (Bytes.readVarintSizeAsInt ⟨bytes, false⟩) := by
  intro n t h
  unfold Bytes.readVarintSizeAsInt at h
  cases hread : Bytes.readVarint ⟨bytes, false⟩ with
  | none =>
    rw [hread] at h
    cases h
  | some x =>
    obtain ⟨m, u⟩ := x
    rw [hread] at h
    simp only at h
    split at h
    · cases h
    · simp only [Option.some.injEq, Prod.mk.injEq] at h
      rw [← h.2]
      exact takes_readVarint m u hread

theorem takes_readLittleEndian (size : ℕ) : Takes bytes (readLittleEndian size (⟨bytes, false⟩ : Bytes)) :=
  (takes_readRaw size).map fun bytes => Nat.ofDigits 256 (bytes.map UInt8.toNat)

theorem takes_readBytes : Takes bytes (readBytes (⟨bytes, false⟩ : Bytes)) := by
  refine takes_readVarint32.bind fun length rest _ => ?_
  simp only
  split
  · exact takes_none
  · exact takes_readRaw _

/-- A tag is at least one byte. -/
theorem readTag_length {t : Bytes} {tag : UInt32} (h : Bytes.readTag ⟨bytes, false⟩ = (tag, t)) (hne : tag ≠ 0) :
    t.ended = false ∧ t.bytes.length < bytes.length := by
  unfold Bytes.readTag at h
  rcases bytes with _ | ⟨b, bytes⟩
  · simp only [Prod.mk.injEq] at h
    exact absurd h.1.symm hne
  · simp only at h
    cases hread : Bytes.readVarint ⟨b :: bytes, false⟩ with
    | none =>
      rw [hread] at h
      simp only [Prod.mk.injEq] at h
      exact absurd h.1.symm hne
    | some x =>
      obtain ⟨n, u⟩ := x
      rw [hread] at h
      simp only [Prod.mk.injEq] at h
      obtain ⟨⟨m, rest⟩, hdecode, heq⟩ := Option.map_eq_some_iff.mp hread
      simp only [Prod.mk.injEq] at heq
      rw [← h.2, ← heq.2]
      exact ⟨rfl, Base128.decode_length hdecode⟩

/-- At the end of the bytes, and nowhere else, there is the end. -/
theorem readTag_zero {t : Bytes} (h : Bytes.readTag ⟨bytes, false⟩ = (0, t)) :
    t.bytes.length ≤ bytes.length ∧ (t.ended = true ↔ bytes = []) := by
  unfold Bytes.readTag at h
  rcases bytes with _ | ⟨b, bytes⟩
  · simp only [Prod.mk.injEq] at h
    rw [← h.2]
    simp
  · simp only at h
    cases hread : Bytes.readVarint ⟨b :: bytes, false⟩ with
    | none =>
      rw [hread] at h
      simp only [Prod.mk.injEq] at h
      rw [← h.2]
      simp
    | some x =>
      obtain ⟨n, u⟩ := x
      rw [hread] at h
      simp only [Prod.mk.injEq] at h
      obtain ⟨hended, hlen⟩ := takes_readVarint n u hread
      rw [← h.2]
      exact ⟨hlen, by simp [hended]⟩

/-! ## Fields that are not known -/

/-- A `SkipMessage` that takes bytes, and looks beyond the end only to end with a tag 0. -/
def SkipTakes (bytes : List UInt8) (x : Option ((List UnknownField × UInt32) × Bytes)) : Prop :=
  ∀ fields tag t, x = some ((fields, tag), t) → (tag ≠ 0 → t.ended = false) ∧ t.bytes.length ≤ bytes.length

theorem takes_skipFieldWith {skip : ℕ → Bytes → Option ((List UnknownField × UInt32) × Bytes)}
    (hskip : ∀ budget, SkipTakes bytes (skip budget ⟨bytes, false⟩)) (budget : ℕ) (tag : UInt32) :
    Takes bytes (skipFieldWith skip budget tag ⟨bytes, false⟩) := by
  unfold skipFieldWith
  simp only
  split
  · exact takes_none
  split
  · exact takes_readVarint64.map (UnknownField.varint (getTagFieldNumber tag))
  split
  · exact (takes_readLittleEndian 8).map fun value => UnknownField.fixed64 (getTagFieldNumber tag) (UInt64.ofNat value)
  split
  · exact takes_readBytes.map (UnknownField.lengthDelimited (getTagFieldNumber tag))
  split
  · rcases budget with _ | budget
    · exact takes_none
    · intro field t ht
      obtain ⟨⟨⟨fields, last⟩, u⟩, hskipped, hgroup⟩ := Option.bind_eq_some_iff.mp ht
      obtain ⟨hended, hlen⟩ := hskip budget fields last u hskipped
      simp only at hgroup
      split at hgroup
      · rename_i hlast
        simp only [Option.some.injEq, Prod.mk.injEq] at hgroup
        rw [← hgroup.2]
        exact ⟨hended (by rw [hlast]; exact makeTag_ne_zero _), hlen⟩
      · cases hgroup
  split
  · exact (takes_readLittleEndian 4).map fun value => UnknownField.fixed32 (getTagFieldNumber tag) (UInt32.ofNat value)
  · exact takes_none

/-- A state that is still being read. -/
theorem eq_reading {t : Bytes} (h : t.ended = false) : t = ⟨t.bytes, false⟩ := by rw [← h]

theorem takes_skipMessage (fuel : ℕ) (fields : List UnknownField) (budget : ℕ) (bytes : List UInt8) :
    SkipTakes bytes (skipMessage fuel fields budget ⟨bytes, false⟩) := by
  induction fuel generalizing fields budget bytes with
  | zero =>
    intro fields' tag t h
    cases h
  | succ fuel ih =>
    intro fields' last u h
    unfold skipMessage at h
    simp only [Input.readTag] at h
    generalize htag : Bytes.readTag ⟨bytes, false⟩ = p at h
    obtain ⟨tag, t⟩ := p
    simp only at h
    split at h
    · rename_i hstop
      simp only [Option.some.injEq, Prod.mk.injEq] at h
      obtain ⟨⟨-, rfl⟩, rfl⟩ := h
      by_cases h0 : tag = 0
      · subst h0
        exact ⟨fun hne => absurd rfl hne, (readTag_zero htag).1⟩
      · exact ⟨fun _ => (readTag_length htag h0).1, (readTag_length htag h0).2.le⟩
    · rename_i hgoes
      rw [not_or] at hgoes
      obtain ⟨hended, hlen⟩ := readTag_length htag hgoes.1
      obtain ⟨⟨field, v⟩, hfield, hrest⟩ := Option.bind_eq_some_iff.mp h
      rw [eq_reading hended] at hfield
      obtain ⟨hvended, hvlen⟩ := takes_skipFieldWith (fun budget => ih [] budget t.bytes) budget tag field v hfield
      simp only at hrest
      rw [eq_reading hvended] at hrest
      obtain ⟨huended, hulen⟩ := ih _ budget v.bytes fields' last u hrest
      exact ⟨huended, by omega⟩

/-- `SkipField` uses `SkipMessage` on what it is given. -/
theorem skipFieldWith_congr {skip skip' : ℕ → Bytes → Option ((List UnknownField × UInt32) × Bytes)} {s : Bytes}
    (hskip : ∀ budget, skip budget s = skip' budget s) (budget : ℕ) (tag : UInt32) :
    skipFieldWith skip budget tag s = skipFieldWith skip' budget tag s := by
  unfold skipFieldWith
  rcases budget with _ | budget
  · rfl
  · simp only [hskip]

/-- **Fuel does not matter** for `SkipMessage`. -/
theorem skipMessage_fuel {fuel fuel' : ℕ} (fields : List UnknownField) (budget : ℕ) (hfuel : bytes.length < fuel)
    (hfuel' : bytes.length < fuel') :
    skipMessage fuel fields budget (⟨bytes, false⟩ : Bytes) = skipMessage fuel' fields budget ⟨bytes, false⟩ := by
  induction fuel generalizing fuel' fields budget bytes with
  | zero => omega
  | succ fuel ih =>
    obtain ⟨fuel', rfl⟩ : ∃ n, fuel' = n + 1 := ⟨fuel' - 1, by omega⟩
    unfold skipMessage
    simp only [Input.readTag]
    generalize htag : Bytes.readTag ⟨bytes, false⟩ = p
    obtain ⟨tag, t⟩ := p
    simp only
    split
    · rfl
    · rename_i hgoes
      rw [not_or] at hgoes
      obtain ⟨hended, hlen⟩ := readTag_length htag hgoes.1
      rw [eq_reading hended, skipFieldWith_congr fun budget => ih [] budget (by omega) (by omega : t.bytes.length < fuel')]
      simp only [Option.bind_eq_bind]
      cases hfield : skipFieldWith (skipMessage fuel' []) budget tag (⟨t.bytes, false⟩ : Bytes) with
      | none => rfl
      | some x =>
        obtain ⟨field, v⟩ := x
        obtain ⟨hvended, hvlen⟩ := takes_skipFieldWith
          (fun budget => takes_skipMessage fuel' [] budget t.bytes) budget tag field v hfield
        simp only [Option.bind_some]
        rw [eq_reading hvended]
        exact ih _ budget (by omega) (by omega)

theorem takes_skipField (fuel budget : ℕ) (tag : UInt32) : Takes bytes (skipField fuel budget tag ⟨bytes, false⟩) :=
  takes_skipFieldWith (fun budget => takes_skipMessage fuel [] budget bytes) budget tag

theorem skipField_fuel {fuel fuel' : ℕ} (budget : ℕ) (tag : UInt32) (hfuel : bytes.length < fuel)
    (hfuel' : bytes.length < fuel') :
    skipField fuel budget tag (⟨bytes, false⟩ : Bytes) = skipField fuel' budget tag ⟨bytes, false⟩ :=
  skipFieldWith_congr (fun budget => skipMessage_fuel [] budget hfuel hfuel') budget tag

/-! ## Messages -/

/-- The case of a field reads bytes, and does not depend on the fuel. -/
structure Field.Steady (f : Field F) : Prop where
  takes (fuel budget : ℕ) (m : F) (bytes : List UInt8) : Takes bytes (f.read fuel budget m (⟨bytes, false⟩ : Bytes))
  fuel {fuel fuel' : ℕ} (budget : ℕ) (m : F) {bytes : List UInt8} (hfuel : bytes.length < fuel)
    (hfuel' : bytes.length < fuel') :
    f.read fuel budget m (⟨bytes, false⟩ : Bytes) = f.read fuel' budget m ⟨bytes, false⟩

namespace Codec

variable {c : Codec F}

/-- What the loop does after a tag. -/
def round (c : Codec F) (fuel budget : ℕ) (m : Message F) (tag : UInt32) (s : Bytes) : Option (Message F × Bytes) :=
  match if tag - 1 < 127 then c.field? tag else none with
  | some f => (f.read fuel budget m.fields s).map fun x => ({ m with fields := x.1 }, x.2)
  | none => (skipField fuel budget tag s).map fun x => ({ m with unknownFields := m.unknownFields ++ [x.1] }, x.2)

/-- One round of the loop. -/
theorem mergePartial_succ (fuel budget : ℕ) (m : Message F) (s : Bytes) :
    c.mergePartial (fuel + 1) budget m s =
      if s.readTag.1 = 0 then some (m, s.readTag.2)
      else c.round fuel budget m s.readTag.1 s.readTag.2 >>= fun x => c.mergePartial fuel budget x.1 x.2 := by
  rw [mergePartial, round]
  simp only [Input.readTagWithCutoff, decide_eq_true_eq]
  generalize hfound : (if s.readTag.1 - 1 < 127 then c.field? s.readTag.1 else none) = found
  rcases found with _ | f
  · simp only
    cases skipField fuel budget s.readTag.1 s.readTag.2 <;> rfl
  · have hne : s.readTag.1 ≠ 0 := by
      intro h0
      rw [h0] at hfound
      cases hfound
    simp only [if_neg hne]
    cases f.read fuel budget m.fields s.readTag.2 <;> rfl

theorem takes_round (hfields : ∀ f ∈ c.fields, f.Steady) (fuel budget : ℕ) (m : Message F) (tag : UInt32)
    (bytes : List UInt8) : Takes bytes (c.round fuel budget m tag ⟨bytes, false⟩) := by
  unfold round
  split
  · rename_i f hfound
    split at hfound
    · exact ((hfields f (mem_of_field? hfound).1).takes fuel budget m.fields bytes).map fun fields => { m with fields }
    · cases hfound
  · exact (takes_skipField fuel budget tag).map fun field => { m with unknownFields := m.unknownFields ++ [field] }

theorem round_fuel (hfields : ∀ f ∈ c.fields, f.Steady) {fuel fuel' : ℕ} (budget : ℕ) (m : Message F) (tag : UInt32)
    {bytes : List UInt8} (hfuel : bytes.length < fuel) (hfuel' : bytes.length < fuel') :
    c.round fuel budget m tag ⟨bytes, false⟩ = c.round fuel' budget m tag ⟨bytes, false⟩ := by
  unfold round
  split
  · rename_i f hfound
    split at hfound
    · rw [(hfields f (mem_of_field? hfound).1).fuel budget m.fields hfuel hfuel']
    · cases hfound
  · rw [skipField_fuel budget tag hfuel hfuel']

/-- What `MergePartialFromCodedStream` leaves: it has come to the end, or has stopped at a tag 0. -/
theorem takes_mergePartial (hfields : ∀ f ∈ c.fields, f.Steady) (fuel budget : ℕ) (m : Message F) (bytes : List UInt8) {m' : Message F}
    {t : Bytes} (h : c.mergePartial fuel budget m (⟨bytes, false⟩ : Bytes) = some (m', t)) :
    t.bytes.length ≤ bytes.length ∧ (t.ended = true → t.bytes = []) := by
  induction fuel generalizing m bytes with
  | zero => cases h
  | succ fuel ih =>
    rw [mergePartial_succ] at h
    generalize htag : Bytes.readTag ⟨bytes, false⟩ = p at h
    obtain ⟨tag, u⟩ := p
    simp only at h
    split at h
    · rename_i h0
      subst h0
      simp only [Option.some.injEq, Prod.mk.injEq] at h
      obtain ⟨hlen, hend⟩ := readTag_zero htag
      rw [← h.2]
      refine ⟨hlen, fun hended => ?_⟩
      rw [hend.mp hended, List.length_nil, Nat.le_zero] at hlen
      exact List.length_eq_zero_iff.mp hlen
    · rename_i hne
      obtain ⟨hended, hlen⟩ := readTag_length htag hne
      obtain ⟨⟨m₁, v⟩, hround, hrest⟩ := Option.bind_eq_some_iff.mp h
      rw [eq_reading hended] at hround
      obtain ⟨hvended, hvlen⟩ := takes_round hfields fuel budget m tag u.bytes m₁ v hround
      simp only at hrest
      rw [eq_reading hvended] at hrest
      obtain ⟨hle, hend⟩ := ih m₁ v.bytes hrest
      exact ⟨by omega, hend⟩

/-- **Fuel does not matter** for `MergePartialFromCodedStream`. -/
theorem mergePartial_fuel (hfields : ∀ f ∈ c.fields, f.Steady) {fuel fuel' : ℕ} (budget : ℕ) (m : Message F) {bytes : List UInt8}
    (hfuel : bytes.length < fuel) (hfuel' : bytes.length < fuel') :
    c.mergePartial fuel budget m (⟨bytes, false⟩ : Bytes) = c.mergePartial fuel' budget m ⟨bytes, false⟩ := by
  induction fuel generalizing fuel' m bytes with
  | zero => omega
  | succ fuel ih =>
    obtain ⟨fuel', rfl⟩ : ∃ n, fuel' = n + 1 := ⟨fuel' - 1, by omega⟩
    rw [mergePartial_succ, mergePartial_succ]
    generalize htag : Bytes.readTag ⟨bytes, false⟩ = p
    obtain ⟨tag, u⟩ := p
    simp only
    split
    · rfl
    · rename_i hne
      obtain ⟨hended, hlen⟩ := readTag_length htag hne
      rw [eq_reading hended, round_fuel hfields budget m tag (by omega) (by omega : u.bytes.length < fuel')]
      simp only [Option.bind_eq_bind]
      cases hround : c.round fuel' budget m tag ⟨u.bytes, false⟩ with
      | none => rfl
      | some x =>
        obtain ⟨m₁, v⟩ := x
        obtain ⟨hvended, hvlen⟩ := takes_round hfields fuel' budget m tag u.bytes m₁ v hround
        simp only [Option.bind_some]
        rw [eq_reading hvended]
        exact ih m₁ (by omega) (by omega)

/-! ## The result -/

/-- A message that is read from the bytes into `m`; they have to be used up. -/
def parse (c : Codec F) (budget : ℕ) (m : Message F) (bytes : List UInt8) : Option (Message F) :=
  match c.mergePartial (bytes.length + 1) budget m (⟨bytes, false⟩ : Bytes) with
  | some (m, s) => if s.ended then some m else none
  | none => none

/-- One field that is read into `m` after its tag. -/
def step (c : Codec F) (budget : ℕ) (m : Message F) (tag : UInt32) (bytes : List UInt8) : Option (Message F × List UInt8) :=
  (c.round (bytes.length + 1) budget m tag ⟨bytes, false⟩).map fun x => (x.1, x.2.bytes)

/-- No bytes leave the message as it is. -/
@[simp] theorem parse_nil (c : Codec F) (budget : ℕ) (m : Message F) : c.parse budget m [] = some m := by
  unfold parse
  rw [mergePartial_succ]
  rfl

/-- **A message is read field by field.** -/
theorem parse_cons (hfields : ∀ f ∈ c.fields, f.Steady) (budget : ℕ) (m : Message F) {bytes : List UInt8} (hne : bytes ≠ []) :
    c.parse budget m bytes =
      match Base128.decode 10 bytes with
      | some (n, rest) =>
        if UInt32.ofNat n = 0 then none
        else c.step budget m (UInt32.ofNat n) rest >>= fun x => c.parse budget x.1 x.2
      | none => none := by
  obtain ⟨b, tail, rfl⟩ := List.exists_cons_of_ne_nil hne
  unfold parse
  rw [mergePartial_succ]
  cases hdecode : Base128.decode 10 (b :: tail) with
  | none =>
    have htag : Bytes.readTag ⟨b :: tail, false⟩ = (0, ⟨b :: tail, false⟩) := by
      simp only [Bytes.readTag, Bytes.readVarint, hdecode, Option.map_none]
    rw [htag]
    rfl
  | some x =>
    obtain ⟨n, rest⟩ := x
    have htag : Bytes.readTag ⟨b :: tail, false⟩ = (UInt32.ofNat n, ⟨rest, false⟩) := by
      simp only [Bytes.readTag, Bytes.readVarint, hdecode, Option.map_some]
    have hlen := Base128.decode_length hdecode
    rw [htag]
    simp only
    by_cases h0 : UInt32.ofNat n = 0
    · rw [if_pos h0, if_pos h0]
      rfl
    · rw [if_neg h0, if_neg h0, round_fuel hfields budget m _ (by omega) (by omega : rest.length < rest.length + 1), step]
      simp only [Option.bind_eq_bind]
      cases hround : c.round (rest.length + 1) budget m (UInt32.ofNat n) ⟨rest, false⟩ with
      | none => rfl
      | some x =>
        obtain ⟨m₁, v⟩ := x
        obtain ⟨hvended, hvlen⟩ := takes_round hfields _ budget m _ rest m₁ v hround
        simp only [Option.bind_some, Option.map_some]
        rw [eq_reading hvended, mergePartial_fuel hfields budget m₁ (by omega) (by omega : v.bytes.length < v.bytes.length + 1)]

/-- **`ReadMessage`** reads the bytes of the message as a whole. -/
theorem readMessage_eq (hfields : ∀ f ∈ c.fields, f.Steady) {fuel : ℕ} (budget : ℕ) (m : Message F) {bytes : List UInt8}
    (hfuel : bytes.length < fuel) :
    c.readMessage fuel budget m (⟨bytes, false⟩ : Bytes) =
      Bytes.readVarintSizeAsInt ⟨bytes, false⟩ >>= fun x =>
        match budget with
        | 0 => none
        | budget + 1 => (c.parse budget m (x.2.bytes.take x.1)).map fun m => (m, ⟨x.2.bytes.drop x.1, false⟩) := by
  unfold readMessage
  simp only [Input.readVarintSizeAsInt, Option.bind_eq_bind]
  cases hsize : Bytes.readVarintSizeAsInt ⟨bytes, false⟩ with
  | none => rfl
  | some x =>
    obtain ⟨n, t⟩ := x
    obtain ⟨hended, hlen⟩ := takes_readVarintSizeAsInt n t hsize
    rcases budget with _ | budget
    · rfl
    · have hshort : (t.bytes.take n).length < fuel := by
        rw [List.length_take]
        omega
      simp only [Option.bind_some, Input.withLimit, Bytes.withLimit, hended, parse]
      rw [mergePartial_fuel hfields budget m hshort (Nat.lt_succ_self _)]
      cases hmerge : c.mergePartial ((t.bytes.take n).length + 1) budget m (⟨t.bytes.take n, false⟩ : Bytes) with
      | none => rfl
      | some y =>
        obtain ⟨m', u⟩ := y
        obtain ⟨-, hend⟩ := takes_mergePartial hfields _ budget m _ hmerge
        simp only [Option.bind_eq_bind, Option.bind_some]
        split
        · rename_i hu
          rw [hend hu]
          rfl
        · rfl

theorem takes_readMessage (hfields : ∀ f ∈ c.fields, f.Steady) (fuel budget : ℕ) (m : Message F) (bytes : List UInt8) :
    Takes bytes (c.readMessage fuel budget m (⟨bytes, false⟩ : Bytes)) := by
  unfold readMessage
  refine takes_readVarintSizeAsInt.bind fun n rest _ => ?_
  rcases budget with _ | budget
  · exact takes_none
  · intro m' t h
    obtain ⟨⟨m'', u⟩, hmerge, hlimit⟩ := Option.bind_eq_some_iff.mp h
    simp only at hlimit
    split at hlimit
    · rename_i hu
      simp only [Option.some.injEq, Prod.mk.injEq] at hlimit
      obtain ⟨-, hend⟩ := takes_mergePartial hfields _ budget m _ hmerge
      rw [← hlimit.2, hend hu]
      refine ⟨rfl, ?_⟩
      rw [List.nil_append, List.length_drop]
      exact Nat.sub_le _ _
    · cases hlimit

theorem readMessage_fuel (hfields : ∀ f ∈ c.fields, f.Steady) {fuel fuel' : ℕ} (budget : ℕ) (m : Message F) {bytes : List UInt8}
    (hfuel : bytes.length < fuel) (hfuel' : bytes.length < fuel') :
    c.readMessage fuel budget m (⟨bytes, false⟩ : Bytes) = c.readMessage fuel' budget m ⟨bytes, false⟩ := by
  rw [readMessage_eq hfields budget m hfuel, readMessage_eq hfields budget m hfuel']

end Codec

/-! ## The kinds of fields -/

/-- The values take bytes. -/
def Scalar.Steady (S : Scalar α) : Prop := ∀ bytes, Takes bytes (S.read (⟨bytes, false⟩ : Bytes))

theorem Scalar.steady_int32 : Scalar.int32.Steady := fun _ => takes_readVarint32.map UInt32.toInt32

theorem Scalar.steady_int64 : Scalar.int64.Steady := fun _ => takes_readVarint64.map UInt64.toInt64

theorem Scalar.steady_bytes : Scalar.bytes.Steady := fun _ => takes_readBytes

theorem Scalar.steady_string : Scalar.string.Steady := by
  intro bytes
  refine takes_readBytes.bind fun value rest _ => ?_
  simp only
  split
  · intro a t h
    simp only [Option.some.injEq, Prod.mk.injEq] at h
    rw [← h.2]
    exact ⟨rfl, le_rfl⟩
  · exact takes_none

namespace Field

theorem steady_scalar [DecidableEq α] {S : Scalar α} (hS : S.Steady) (default : α) (tag : UInt32) (get : F → α)
    (set : F → α → F) : (Field.scalar S default tag get set).Steady :=
  ⟨fun _ _ m bytes => (hS bytes).map (set m), fun _ _ _ _ _ => rfl⟩

theorem steady_optional {S : Scalar α} (hS : S.Steady) (tag : UInt32) (get : F → Option α) (set : F → α → F) :
    (Field.optional S tag get set).Steady :=
  ⟨fun _ _ m bytes => (hS bytes).map (set m), fun _ _ _ _ _ => rfl⟩

theorem steady_message {c : Codec G} (hc : ∀ f ∈ c.fields, f.Steady) (tag : UInt32) (get : F → Option (Message G))
    (set : F → Message G → F) : (Field.message c tag get set).Steady where
  takes fuel budget m bytes := (Codec.takes_readMessage hc fuel budget ((get m).getD c.new) bytes).map (set m)
  fuel budget m _ hfuel hfuel' := by
    simp only [Field.message]
    rw [Codec.readMessage_fuel hc budget _ hfuel hfuel']

theorem steady_repeated {c : Codec G} (hc : ∀ f ∈ c.fields, f.Steady) (tag : UInt32) (get : F → List (Message G))
    (set : F → List (Message G) → F) : (Field.repeated c tag get set).Steady where
  takes fuel budget m bytes := (Codec.takes_readMessage hc fuel budget c.new bytes).map fun n => set m (get m ++ [n])
  fuel budget m _ hfuel hfuel' := by
    simp only [Field.repeated]
    rw [Codec.readMessage_fuel hc budget _ hfuel hfuel']

end Field

/-! ## A message that arrives in slices -/

/-- **`GenericDeserialize`** reads the bytes of the slices, up to `INT_MAX`. -/
theorem Codec.deserialize_eq (c : Codec F) (hagrees : ∀ f ∈ c.fields, f.Agrees) (hsteady : ∀ f ∈ c.fields, f.Steady)
    (slices : List (List UInt8)) :
    c.deserialize slices = c.parse Codec.recursionLimit c.new (slices.flatten.take INT_MAX) := by
  have hshows := (CodedInputStream.shows_new slices).setTotalBytesLimit
  have hagree := c.agree_mergePartial hagrees (slices.flatten.length + 1) Codec.recursionLimit c.new hshows
  have hshort : (slices.flatten.take INT_MAX).length < slices.flatten.length + 1 := by
    rw [List.length_take]
    omega
  unfold deserialize parse
  rw [mergePartial_fuel hsteady _ _ (Nat.lt_succ_self _) hshort]
  simp only
  generalize c.mergePartial (slices.flatten.length + 1) recursionLimit c.new
    ((CodedInputStream.new slices).setTotalBytesLimit INT_MAX) = x at hagree
  generalize c.mergePartial (slices.flatten.length + 1) recursionLimit c.new
    (⟨slices.flatten.take INT_MAX, false⟩ : Bytes) = y at hagree
  cases hagree with
  | none => rfl
  | some hends => simp only [CodedInputStream.consumedEntireMessage, hends.ended]

end SpeechlyPlugin.Proto
