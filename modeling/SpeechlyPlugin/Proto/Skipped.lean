import SpeechlyPlugin.Proto.Written

/-!
# Fields that are not known

A field that is not known is kept, and written again as it was read: `SkipField` reads back what
`SerializeUnknownFields` writes, groups with the groups in them.
-/

namespace SpeechlyPlugin.Proto

open Lib

/-! ## Tags -/

theorem toNat_makeTag {number type : UInt32} (hnumber : number.toNat < 2 ^ 29) (htype : type.toNat < 8) :
    (makeTag number type).toNat = number.toNat * 8 + type.toNat := by
  rw [makeTag, UInt32.toNat_or, UInt32.toNat_shiftLeft]
  show (number.toNat <<< 3 % 2 ^ 32) ||| type.toNat = _
  have hword : number.toNat <<< 3 % 2 ^ 32 = number.toNat <<< 3 := by
    rw [Nat.shiftLeft_eq]
    omega
  rw [hword, ← Nat.shiftLeft_add_eq_or_of_lt (by omega : type.toNat < 2 ^ 3), Nat.shiftLeft_eq]

theorem getTagFieldNumber_makeTag {number type : UInt32} (hnumber : number.toNat < 2 ^ 29) (htype : type.toNat < 8) :
    getTagFieldNumber (makeTag number type) = number := by
  apply UInt32.toNat_inj.mp
  rw [getTagFieldNumber, UInt32.toNat_shiftRight, toNat_makeTag hnumber htype]
  show (number.toNat * 8 + type.toNat) >>> 3 = number.toNat
  rw [Nat.shiftRight_eq_div_pow]
  omega

theorem getTagWireType_makeTag {number type : UInt32} (hnumber : number.toNat < 2 ^ 29) (htype : type.toNat < 8) :
    getTagWireType (makeTag number type) = type := by
  apply UInt32.toNat_inj.mp
  rw [getTagWireType, UInt32.toNat_and, toNat_makeTag hnumber htype]
  show (number.toNat * 8 + type.toNat) &&& (2 ^ 3 - 1) = type.toNat
  rw [Nat.and_two_pow_sub_one_eq_mod]
  omega

theorem isFieldNumber_iff (number : UInt32) :
    isFieldNumber number = true ↔ 0 < number.toNat ∧ number.toNat < 2 ^ 29 := by
  simp only [isFieldNumber, Bool.and_eq_true, decide_eq_true_eq, UInt32.lt_iff_toNat_lt]
  rfl

/-! ## Little endian -/

theorem writeLittleEndian_succ (size value : ℕ) :
    writeLittleEndian (size + 1) value = UInt8.ofNat value :: writeLittleEndian size (value / 256) := by
  simp only [writeLittleEndian, List.range_succ_eq_map, List.map_cons, List.map_map, pow_zero, Nat.div_one,
    List.cons.injEq, true_and]
  apply List.map_congr_left
  intro i _
  simp only [Function.comp, Nat.succ_eq_add_one, Nat.pow_succ', Nat.div_div_eq_div_mul]

@[simp] theorem length_writeLittleEndian (size value : ℕ) : (writeLittleEndian size value).length = size := by
  simp [writeLittleEndian]

theorem ofDigits_writeLittleEndian {size value : ℕ} (h : value < 256 ^ size) :
    Nat.ofDigits 256 ((writeLittleEndian size value).map UInt8.toNat) = value := by
  induction size generalizing value with
  | zero =>
    have h0 : value = 0 := by simpa using h
    rw [h0]
    rfl
  | succ size ih =>
    have hdiv : value / 256 < 256 ^ size := by
      apply Nat.div_lt_of_lt_mul
      rw [← Nat.pow_succ']
      exact h
    rw [writeLittleEndian_succ, List.map_cons, Nat.ofDigits_cons, ih hdiv, UInt8.toNat_ofNat']
    have hlow : value % 2 ^ 8 + 256 * (value / 256) = value := Nat.mod_add_div value 256
    exact hlow

theorem readLittleEndian_write {size value : ℕ} (h : value < 256 ^ size) (rest : List UInt8) :
    readLittleEndian size (⟨writeLittleEndian size value ++ rest, false⟩ : Bytes) = some (value, ⟨rest, false⟩) := by
  have hraw := readRaw_append (writeLittleEndian size value) rest
  rw [length_writeLittleEndian] at hraw
  simp only [readLittleEndian, Input.readRaw, hraw, Option.map_some]
  rw [show (fun x : UInt8 => x.toNat) = UInt8.toNat from rfl, ofDigits_writeLittleEndian h]

/-! ## One field -/

namespace UnknownField

/-- What is written after the tag. -/
def payload : UnknownField → List UInt8
  | .varint _ value => writeVarint64 value
  | .fixed32 _ value => writeLittleEndian 4 value.toNat
  | .fixed64 _ value => writeLittleEndian 8 value.toNat
  | .lengthDelimited _ bytes => writeBytes bytes
  | .group number inner => serializeUnknownFields inner ++ writeVarint32 (makeTag number WIRETYPE_END_GROUP)

/-- The two parts of a tag. -/
def number : UnknownField → UInt32
  | .varint number _ => number
  | .fixed32 number _ => number
  | .fixed64 number _ => number
  | .lengthDelimited number _ => number
  | .group number _ => number

def wireType : UnknownField → UInt32
  | .varint .. => WIRETYPE_VARINT
  | .fixed32 .. => WIRETYPE_FIXED32
  | .fixed64 .. => WIRETYPE_FIXED64
  | .lengthDelimited .. => WIRETYPE_LENGTH_DELIMITED
  | .group .. => WIRETYPE_START_GROUP

variable {budget : ℕ} {u : UnknownField}

theorem tag_eq (u : UnknownField) : u.tag = makeTag u.number u.wireType := by
  cases u <;> rfl

theorem wireType_lt (u : UnknownField) : u.wireType.toNat < 8 := by
  cases u <;> simp only [wireType] <;> decide

theorem wireType_ne (u : UnknownField) : u.wireType ≠ WIRETYPE_END_GROUP := by
  cases u <;> simp only [wireType] <;> decide

theorem isFieldNumber_of_ok (h : okUnknownFields budget [u] = true) : isFieldNumber u.number = true := by
  cases u with
  | group number inner =>
    cases budget with
    | zero => simp [okUnknownFields] at h
    | succ budget =>
      simp only [okUnknownFields, Bool.and_true, Bool.and_eq_true] at h
      exact h.1
  | _ => simpa [okUnknownFields, number] using h

theorem getTagFieldNumber_tag (h : isFieldNumber u.number = true) : getTagFieldNumber u.tag = u.number := by
  rw [tag_eq, getTagFieldNumber_makeTag ((isFieldNumber_iff _).mp h).2 u.wireType_lt]

theorem getTagWireType_tag (h : isFieldNumber u.number = true) : getTagWireType u.tag = u.wireType := by
  rw [tag_eq, getTagWireType_makeTag ((isFieldNumber_iff _).mp h).2 u.wireType_lt]

theorem number_ne_zero (h : isFieldNumber u.number = true) : u.number ≠ 0 := by
  intro h0
  have hpos := ((isFieldNumber_iff _).mp h).1
  rw [h0] at hpos
  exact absurd hpos (by decide)

/-- A tag of a field does not end a group. -/
theorem tag_goes_on (h : isFieldNumber u.number = true) : ¬(u.tag = 0 ∨ getTagWireType u.tag = WIRETYPE_END_GROUP) := by
  rintro (h0 | hend)
  · have hnumber := getTagFieldNumber_tag h
    rw [h0] at hnumber
    exact number_ne_zero h hnumber.symm
  · rw [getTagWireType_tag h] at hend
    exact u.wireType_ne hend

end UnknownField

theorem serializeUnknownFields_cons (u : UnknownField) (fields : List UnknownField) :
    serializeUnknownFields (u :: fields) = writeVarint32 u.tag ++ (u.payload ++ serializeUnknownFields fields) := by
  cases u <;> simp only [serializeUnknownFields, UnknownField.tag, UnknownField.payload, List.append_assoc]

theorem okUnknownFields_cons (budget : ℕ) (u : UnknownField) (fields : List UnknownField) :
    okUnknownFields budget (u :: fields) = (okUnknownFields budget [u] && okUnknownFields budget fields) := by
  cases u with
  | group number inner => cases budget <;> simp [okUnknownFields]
  | _ => simp [okUnknownFields]

/-- **`ComputeUnknownFieldsSize`** is the number of bytes. -/
theorem length_serializeUnknownFields (fields : List UnknownField) :
    (serializeUnknownFields fields).length = computeUnknownFieldsSize fields := by
  induction fields using serializeUnknownFields.induct with
  | case1 => simp only [serializeUnknownFields, computeUnknownFieldsSize, List.length_nil]
  | case2 number value fields ih =>
    simp only [serializeUnknownFields, computeUnknownFieldsSize, List.length_append, length_writeVarint32,
      length_writeVarint64, ih]
  | case3 number value fields ih =>
    simp only [serializeUnknownFields, computeUnknownFieldsSize, List.length_append, length_writeVarint32,
      length_writeLittleEndian, ih]
  | case4 number value fields ih =>
    simp only [serializeUnknownFields, computeUnknownFieldsSize, List.length_append, length_writeVarint32,
      length_writeLittleEndian, ih]
  | case5 number bytes fields ih =>
    simp only [serializeUnknownFields, computeUnknownFieldsSize, List.length_append, length_writeVarint32,
      length_writeBytes, lengthDelimitedSize, ih]
    omega
  | case6 number inner fields ihInner ih =>
    simp only [serializeUnknownFields, computeUnknownFieldsSize, List.length_append, length_writeVarint32, ihInner, ih]

/-! ## What was written is skipped -/

theorem readTag_write (tag : UInt32) (rest : List UInt8) :
    Bytes.readTag ⟨writeVarint32 tag ++ rest, false⟩ = (tag, ⟨rest, false⟩) := by
  have hlt := tag.toNat_lt
  rw [writeVarint32_eq]
  obtain ⟨b, bytes, hbytes⟩ := List.exists_cons_of_ne_nil (Base128.encode_ne_nil tag.toNat)
  have hread := readVarint_encode (n := tag.toNat) (by omega) rest
  rw [hbytes, List.cons_append] at hread ⊢
  simp only [Bytes.readTag, hread]
  simp

/-- What `SkipField` does at the tag of a field. -/
theorem skipField_tag {u : UnknownField} (h : isFieldNumber u.number = true) (fuel budget : ℕ) (s : Bytes) :
    skipField fuel budget u.tag s =
      match u with
      | .varint number _ => (Input.readVarint64 s).map fun x => (.varint number x.1, x.2)
      | .fixed32 number _ => (readLittleEndian 4 s).map fun x => (.fixed32 number (UInt32.ofNat x.1), x.2)
      | .fixed64 number _ => (readLittleEndian 8 s).map fun x => (.fixed64 number (UInt64.ofNat x.1), x.2)
      | .lengthDelimited number _ => (readBytes s).map fun x => (.lengthDelimited number x.1, x.2)
      | .group number _ =>
        match budget with
        | 0 => none
        | budget + 1 => skipMessage fuel [] budget s >>= fun x =>
          if x.1.2 = makeTag number WIRETYPE_END_GROUP then some (.group number x.1.1, x.2) else none := by
  have hnumber := UnknownField.getTagFieldNumber_tag h
  have htype := UnknownField.getTagWireType_tag h
  have hne := UnknownField.number_ne_zero h
  unfold skipField skipFieldWith
  rw [hnumber, htype]
  simp only
  rw [if_neg hne]
  cases u <;> rfl

/-- **A field is skipped**: after its tag, `SkipField` reads it. -/
def Skips (budget : ℕ) (u : UnknownField) : Prop :=
  ∀ (rest : List UInt8) (fuel : ℕ), (u.payload ++ rest).length < fuel →
    skipField fuel budget u.tag (⟨u.payload ++ rest, false⟩ : Bytes) = some (u, ⟨rest, false⟩)

/-- **A group is skipped**: `SkipMessage` reads the fields in it, up to the tag that ends it. -/
def SkipsGroup (budget : ℕ) (number : UInt32) (inner : List UnknownField) : Prop :=
  ∀ (fields : List UnknownField) (rest : List UInt8) (fuel : ℕ),
    (serializeUnknownFields inner ++ (writeVarint32 (makeTag number WIRETYPE_END_GROUP) ++ rest)).length < fuel →
    skipMessage fuel fields budget
        (⟨serializeUnknownFields inner ++ (writeVarint32 (makeTag number WIRETYPE_END_GROUP) ++ rest), false⟩ : Bytes) =
      some ((fields ++ inner, makeTag number WIRETYPE_END_GROUP), ⟨rest, false⟩)

variable {budget : ℕ} {u : UnknownField}

/-- A field is skipped, if it is a group when the fields in it are. -/
theorem skips_of_group (h : isFieldNumber u.number = true) (hsize : u.payload.length ≤ INT_MAX)
    (hgroup : ∀ number inner, u = .group number inner → ∃ b, budget = b + 1 ∧ SkipsGroup b number inner) :
    Skips budget u := by
  intro rest fuel hfuel
  rw [skipField_tag h]
  cases u with
  | varint number value => simp only [UnknownField.payload, readVarint64_write, Option.map_some]
  | fixed32 number value =>
    have hlt : value.toNat < 256 ^ 4 := value.toNat_lt
    simp only [UnknownField.payload, readLittleEndian_write hlt, Option.map_some, UInt32.ofNat_toNat]
  | fixed64 number value =>
    have hlt : value.toNat < 256 ^ 8 := value.toNat_lt
    simp only [UnknownField.payload, readLittleEndian_write hlt, Option.map_some, UInt64.ofNat_toNat]
  | lengthDelimited number bytes =>
    rw [UnknownField.payload, length_writeBytes] at hsize
    simp only [UnknownField.payload, readBytes_write (length_le_of_size hsize), Option.map_some]
  | group number inner =>
    obtain ⟨b, rfl, hinner⟩ := hgroup number inner rfl
    rw [UnknownField.payload, List.append_assoc] at hfuel ⊢
    simp only [hinner [] rest fuel hfuel, Option.bind_eq_bind, Option.bind_some, if_true, List.nil_append]

/-- A round of `SkipMessage`. -/
theorem skipMessage_cons {fuel : ℕ} (hnumber : isFieldNumber u.number = true) (h : Skips budget u)
    (fields : List UnknownField) {rest : List UInt8} (hfuel : (writeVarint32 u.tag ++ (u.payload ++ rest)).length < fuel + 1) :
    skipMessage (fuel + 1) fields budget (⟨writeVarint32 u.tag ++ (u.payload ++ rest), false⟩ : Bytes) =
      skipMessage fuel (fields ++ [u]) budget ⟨rest, false⟩ := by
  have hpos := Base128.encode_length_pos u.tag.toNat
  rw [List.length_append, writeVarint32_eq] at hfuel
  rw [skipMessage]
  simp only [Input.readTag, readTag_write]
  rw [if_neg (UnknownField.tag_goes_on hnumber)]
  have hskip := h rest fuel (by omega)
  rw [skipField] at hskip
  rw [hskip]
  rfl

/-- No field, and then the tag that ends the group. -/
theorem skipsGroup_nil (budget : ℕ) {number : UInt32} (h : isFieldNumber number = true) : SkipsGroup budget number [] := by
  intro fields rest fuel hfuel
  obtain ⟨fuel, rfl⟩ : ∃ n, fuel = n + 1 := ⟨fuel - 1, by omega⟩
  have hends : getTagWireType (makeTag number WIRETYPE_END_GROUP) = WIRETYPE_END_GROUP :=
    getTagWireType_makeTag ((isFieldNumber_iff number).mp h).2 (by decide)
  rw [serializeUnknownFields, List.nil_append, skipMessage]
  simp only [Input.readTag, readTag_write]
  rw [if_pos (Or.inr hends), List.append_nil]

theorem skipsGroup_cons {number : UInt32} {inner : List UnknownField} (hnumber : isFieldNumber u.number = true)
    (h : Skips budget u) (hinner : SkipsGroup budget number inner) : SkipsGroup budget number (u :: inner) := by
  intro fields rest fuel hfuel
  obtain ⟨fuel, rfl⟩ : ∃ n, fuel = n + 1 := ⟨fuel - 1, by omega⟩
  have hpos := Base128.encode_length_pos u.tag.toNat
  rw [serializeUnknownFields_cons, List.append_assoc, List.append_assoc] at hfuel ⊢
  rw [skipMessage_cons hnumber h fields hfuel]
  rw [List.length_append, List.length_append, writeVarint32_eq] at hfuel
  rw [hinner (fields ++ [u]) rest fuel (by omega), List.append_assoc, List.singleton_append]

/-- The size of fields bounds that of each. -/
theorem computeUnknownFieldsSize_cons (u : UnknownField) (fields : List UnknownField) :
    computeUnknownFieldsSize (u :: fields) = (writeVarint32 u.tag).length + u.payload.length + computeUnknownFieldsSize fields := by
  rw [← length_serializeUnknownFields, serializeUnknownFields_cons, List.length_append, List.length_append,
    length_serializeUnknownFields, Nat.add_assoc]

/-- The fields of a message or a group are skipped. -/
def SkipsAll (budget : ℕ) (fields : List UnknownField) : Prop :=
  (∀ u ∈ fields, Skips budget u) ∧ ∀ number, isFieldNumber number = true → SkipsGroup budget number fields

theorem skipsAll_cons {fields : List UnknownField} (hok : okUnknownFields budget (u :: fields) = true)
    (hsize : computeUnknownFieldsSize (u :: fields) ≤ INT_MAX)
    (hgroup : ∀ number inner, u = .group number inner → ∃ b, budget = b + 1 ∧ SkipsGroup b number inner)
    (ih : SkipsAll budget fields) : SkipsAll budget (u :: fields) := by
  rw [okUnknownFields_cons, Bool.and_eq_true] at hok
  rw [computeUnknownFieldsSize_cons] at hsize
  have hnumber := UnknownField.isFieldNumber_of_ok hok.1
  have hskips := skips_of_group hnumber (by omega) hgroup
  refine ⟨?_, fun number h => skipsGroup_cons hnumber hskips (ih.2 number h)⟩
  intro v hv
  rcases List.mem_cons.mp hv with rfl | hv
  · exact hskips
  · exact ih.1 v hv

/-- **What was written is skipped.** -/
theorem skipsAll_of_ok {fields : List UnknownField} (h : okUnknownFields budget fields = true)
    (hsize : computeUnknownFieldsSize fields ≤ INT_MAX) : SkipsAll budget fields := by
  induction budget, fields using okUnknownFields.induct with
  | case1 budget => exact ⟨by simp, fun _ h => skipsGroup_nil budget h⟩
  | case6 number inner fields => simp [okUnknownFields] at h
  | case7 budget number inner fields ihInner ih =>
    have hparts := h
    have hsizes := hsize
    simp only [okUnknownFields, Bool.and_eq_true] at hparts
    simp only [computeUnknownFieldsSize] at hsizes
    refine skipsAll_cons h hsize ?_ (ih hparts.2 (by omega))
    intro number' inner' heq
    cases heq
    exact ⟨budget, rfl, (ihInner hparts.1.2 (by omega)).2 number hparts.1.1⟩
  | _ budget number value fields ih =>
    have hparts := h
    have hsizes := hsize
    simp only [okUnknownFields, Bool.and_eq_true] at hparts
    simp only [computeUnknownFieldsSize] at hsizes
    exact skipsAll_cons h hsize (fun _ _ heq => by cases heq) (ih hparts.2 (by omega))

/-! ## What is skipped can be written -/

/-- A tag is made of its parts. -/
theorem makeTag_parts (tag : UInt32) : makeTag (getTagFieldNumber tag) (getTagWireType tag) = tag := by
  have hlt := tag.toNat_lt
  have hnumber : (getTagFieldNumber tag).toNat = tag.toNat / 8 := by
    rw [getTagFieldNumber, UInt32.toNat_shiftRight]
    show tag.toNat >>> 3 = _
    rw [Nat.shiftRight_eq_div_pow]
  have htype : (getTagWireType tag).toNat = tag.toNat % 8 := by
    rw [getTagWireType, UInt32.toNat_and]
    exact Nat.and_two_pow_sub_one_eq_mod tag.toNat 3
  apply UInt32.toNat_inj.mp
  rw [toNat_makeTag (by omega) (by omega), hnumber, htype]
  omega

theorem isFieldNumber_parts {tag : UInt32} (h : getTagFieldNumber tag ≠ 0) : isFieldNumber (getTagFieldNumber tag) = true := by
  have hlt := tag.toNat_lt
  have hpos : (getTagFieldNumber tag).toNat ≠ 0 := fun h0 => h (UInt32.toNat_inj.mp h0)
  have hle : (getTagFieldNumber tag).toNat < 2 ^ 29 := by
    rw [getTagFieldNumber, UInt32.toNat_shiftRight]
    show tag.toNat >>> 3 < _
    rw [Nat.shiftRight_eq_div_pow]
    omega
  exact (isFieldNumber_iff _).mpr ⟨by omega, hle⟩

theorem okUnknownFields_append (fields fields' : List UnknownField) :
    okUnknownFields budget (fields ++ fields') = (okUnknownFields budget fields && okUnknownFields budget fields') := by
  induction fields with
  | nil => simp [okUnknownFields]
  | cons u fields ih => rw [List.cons_append, okUnknownFields_cons, ih, okUnknownFields_cons budget u fields, Bool.and_assoc]

/-- A `SkipMessage` that gives fields that can be read again. -/
def SkipValid (skip : ℕ → Bytes → Option ((List UnknownField × UInt32) × Bytes)) : Prop :=
  ∀ budget s fields tag t, skip budget s = some ((fields, tag), t) → okUnknownFields budget fields = true

theorem skipFieldWith_valid {skip : ℕ → Bytes → Option ((List UnknownField × UInt32) × Bytes)} (hskip : SkipValid skip)
    {s t : Bytes} {tag : UInt32} (h : skipFieldWith skip budget tag s = some (u, t)) :
    u.tag = tag ∧ okUnknownFields budget [u] = true := by
  unfold skipFieldWith at h
  simp only at h
  split at h
  · cases h
  rename_i hnumber
  have hfield := isFieldNumber_parts hnumber
  have hparts := makeTag_parts tag
  split at h
  · rename_i htype
    obtain ⟨x, -, heq⟩ := Option.map_eq_some_iff.mp h
    cases heq
    rw [htype] at hparts
    exact ⟨hparts, by simp [okUnknownFields, hfield]⟩
  split at h
  · rename_i htype
    obtain ⟨x, -, heq⟩ := Option.map_eq_some_iff.mp h
    cases heq
    rw [htype] at hparts
    exact ⟨hparts, by simp [okUnknownFields, hfield]⟩
  split at h
  · rename_i htype
    obtain ⟨x, -, heq⟩ := Option.map_eq_some_iff.mp h
    cases heq
    rw [htype] at hparts
    exact ⟨hparts, by simp [okUnknownFields, hfield]⟩
  split at h
  · rename_i htype
    rcases budget with _ | budget
    · cases h
    · obtain ⟨⟨⟨fields, last⟩, v⟩, hskipped, hgroup⟩ := Option.bind_eq_some_iff.mp h
      simp only at hgroup
      split at hgroup
      · cases hgroup
        rw [htype] at hparts
        exact ⟨hparts, by simp [okUnknownFields, hfield, hskip budget s fields last _ hskipped]⟩
      · cases hgroup
  split at h
  · rename_i htype
    obtain ⟨x, -, heq⟩ := Option.map_eq_some_iff.mp h
    cases heq
    rw [htype] at hparts
    exact ⟨hparts, by simp [okUnknownFields, hfield]⟩
  · cases h

theorem skipMessage_valid (fuel : ℕ) (fields : List UnknownField) (budget : ℕ) (h : okUnknownFields budget fields = true)
    (s : Bytes) {fields' : List UnknownField} {last : UInt32} {t : Bytes}
    (hread : skipMessage fuel fields budget s = some ((fields', last), t)) : okUnknownFields budget fields' = true := by
  induction fuel generalizing fields budget s fields' last t with
  | zero => cases hread
  | succ fuel ih =>
    rw [skipMessage] at hread
    simp only at hread
    split at hread
    · cases hread
      exact h
    · obtain ⟨⟨field, v⟩, hfield, hrest⟩ := Option.bind_eq_some_iff.mp hread
      have hskip : SkipValid (skipMessage fuel []) := by
        intro budget s fields tag t h
        exact ih [] budget (by simp [okUnknownFields]) s h
      refine ih (fields ++ [field]) budget ?_ v hrest
      rw [okUnknownFields_append, h, (skipFieldWith_valid hskip hfield).2]
      rfl

/-- **What `SkipField` reads** has the tag it was read at, and can be read again. -/
theorem skipField_valid {s t : Bytes} {fuel : ℕ} {tag : UInt32} (h : skipField fuel budget tag s = some (u, t)) :
    u.tag = tag ∧ okUnknownFields budget [u] = true := by
  refine skipFieldWith_valid ?_ h
  intro budget s fields tag t h
  exact skipMessage_valid fuel [] budget (by simp [okUnknownFields]) s h

end SpeechlyPlugin.Proto
