import SpeechlyPlugin.Proto.Skipped
import Mathlib.Algebra.Order.BigOperators.Group.List

/-!
# Round trips

A message that is written is read again into any message, and is merged with what is there as `MergeFrom` does.  What is
read is as it can be written.
-/

namespace SpeechlyPlugin.Proto

open Lib

variable {α F G : Type}

/-! ## Laws -/

/-- The fields that are not known are written the same to a stream. -/
theorem emits_unknownFields (fields : List UnknownField) :
    bytesOf (emitUnknownFields fields) = serializeUnknownFields fields ∧ AllEven (emitUnknownFields fields) := by
  induction fields using emitUnknownFields.induct with
  | case1 => simp [emitUnknownFields, serializeUnknownFields, bytesOf, AllEven]
  | case6 number inner fields ihInner ih =>
    simp [emitUnknownFields, serializeUnknownFields, bytesOf_append, allEven_append, bytesOf, Write.bytes, AllEven, Write.Even,
      ihInner, ih]
  | _ =>
    simp_all [emitUnknownFields, serializeUnknownFields, bytesOf, Write.bytes, AllEven, Write.Even, writeBytes]

/-- The bytes are values of the field, each after the tag, that take the fields of the message from one state to another. -/
inductive Field.Feeds (f : Field F) (budget : ℕ) : F → List UInt8 → F → Prop where
  | nil (a : F) : f.Feeds budget a [] a
  | cons {a a' a'' : F} {value bytes : List UInt8}
      (hread : ∀ (rest : List UInt8) (fuel : ℕ), (value ++ rest).length < fuel →
        f.read fuel budget a (⟨value ++ rest, false⟩ : Bytes) = some (a', ⟨rest, false⟩))
      (htail : f.Feeds budget a' bytes a'') : f.Feeds budget a (writeVarint32 f.tag ++ (value ++ bytes)) a''

/-- What is said of a field. -/
structure Field.Lawful (f : Field F) : Prop where
  agrees : f.Agrees
  steady : f.Steady
  tag_pos : 0 < f.tag.toNat
  tag_lt : f.tag.toNat < 128
  size (m : F) : f.size m = (f.write m).length
  emits (m : F) : bytesOf (f.emits m) = f.write m ∧ (f.size m ≤ INT_MAX → AllEven (f.emits m))
  feeds {budget : ℕ} {m : F} (hok : f.ok budget m = true) (hsize : f.size m ≤ INT_MAX) (a : F) :
    f.Feeds budget a (f.write m) (f.mergeFrom a m)
  valid {fuel budget : ℕ} {a a' : F} {bytes : List UInt8} {t : Bytes} (hfuel : bytes.length < fuel)
    (hok : f.ok budget a = true) (hread : f.read fuel budget a (⟨bytes, false⟩ : Bytes) = some (a', t)) :
    f.ok budget a' = true

theorem Field.Lawful.tag_ne_zero {f : Field F} (h : f.Lawful) : f.tag ≠ 0 := by
  intro h0
  have hpos := h.tag_pos
  rw [h0] at hpos
  exact absurd hpos (by decide)

/-- Reading one field leaves another as it can be written. -/
def Field.Keeps (f g : Field F) : Prop :=
  ∀ (fuel budget : ℕ) (a a' : F) (s t : Bytes), f.read fuel budget a s = some (a', t) →
    g.ok budget a = true → g.ok budget a' = true

/-- What is said of a message. -/
structure Codec.Lawful (c : Codec F) : Prop where
  fields : ∀ f ∈ c.fields, f.Lawful
  nodup : (c.fields.map (·.tag)).Nodup
  keeps : ∀ f ∈ c.fields, ∀ g ∈ c.fields, f.tag ≠ g.tag → f.Keeps g
  default_ok : ∀ f ∈ c.fields, ∀ budget, f.ok budget c.default = true
  merge_default (a : F) : c.fields.foldl (fun b f => f.mergeFrom b a) c.default = a

namespace Codec

variable {c : Codec F} {budget : ℕ}

/-- The bytes take the message from one state to another, whatever follows them. -/
def Reads (c : Codec F) (budget : ℕ) (m : Message F) (bytes : List UInt8) (m' : Message F) : Prop :=
  ∀ rest, c.parse budget m (bytes ++ rest) = c.parse budget m' rest

theorem reads_nil (m : Message F) : c.Reads budget m [] m := fun _ => rfl

theorem Reads.append {m m' m'' : Message F} {bytes bytes' : List UInt8} (h : c.Reads budget m bytes m')
    (h' : c.Reads budget m' bytes' m'') : c.Reads budget m (bytes ++ bytes') m'' := by
  intro rest
  rw [List.append_assoc, h, h']

theorem Reads.parse {m m' : Message F} {bytes : List UInt8} (h : c.Reads budget m bytes m') :
    c.parse budget m bytes = some m' := by
  have hall := h []
  rwa [List.append_nil, parse_nil] at hall

namespace Lawful

variable (h : c.Lawful)
include h

theorem agrees : ∀ f ∈ c.fields, f.Agrees := fun f hf => (h.fields f hf).agrees

theorem steady : ∀ f ∈ c.fields, f.Steady := fun f hf => (h.fields f hf).steady

/-- A field is found by its tag. -/
theorem field?_tag {f : Field F} (hf : f ∈ c.fields) : c.field? f.tag = some f := by
  have hsome : (c.field? f.tag).isSome = true := List.find?_isSome.mpr ⟨f, hf, by simp⟩
  obtain ⟨g, hg⟩ := Option.isSome_iff_exists.mp hsome
  obtain ⟨hmem, htag⟩ := mem_of_field? hg
  rw [hg, List.inj_on_of_nodup_map h.nodup hmem hf htag]

/-- The tags of the fields are those that are looked up. -/
theorem cutoff {tag : UInt32} (htag : tag ≠ 0) : (if tag - 1 < 127 then c.field? tag else none) = c.field? tag := by
  split
  · rfl
  · rename_i hhigh
    cases hfound : c.field? tag with
    | none => rfl
    | some f =>
      obtain ⟨hmem, rfl⟩ := mem_of_field? hfound
      have hlt := (h.fields f hmem).tag_lt
      have hpos : 1 ≤ f.tag := UInt32.le_iff_toNat_le.mpr (h.fields f hmem).tag_pos
      refine absurd ?_ hhigh
      rw [UInt32.lt_iff_toNat_lt, UInt32.toNat_sub_of_le _ _ hpos]
      show f.tag.toNat - 1 < 127
      omega

/-! ### One field -/

/-- After a tag, one field is read. -/
theorem parse_tag (m : Message F) {tag : UInt32} (htag : tag ≠ 0) (bytes : List UInt8) :
    c.parse budget m (writeVarint32 tag ++ bytes) = c.step budget m tag bytes >>= fun x => c.parse budget x.1 x.2 := by
  have hlt := tag.toNat_lt
  have hne : writeVarint32 tag ++ bytes ≠ [] := by
    rw [writeVarint32_eq]
    exact List.append_ne_nil_of_left_ne_nil (Base128.encode_ne_nil _) _
  have hdecode : Base128.decode 10 (writeVarint32 tag ++ bytes) = some (tag.toNat, bytes) := by
    rw [writeVarint32_eq]
    exact Base128.decode_encode (lt_of_lt_of_le hlt (by norm_num)) bytes
  rw [parse_cons h.steady budget m hne, hdecode]
  simp only [UInt32.ofNat_toNat, if_neg htag]

theorem step_known (m : Message F) {f : Field F} (hf : f ∈ c.fields) (bytes : List UInt8) :
    c.step budget m f.tag bytes =
      (f.read (bytes.length + 1) budget m.fields (⟨bytes, false⟩ : Bytes)).map fun x => ({ m with fields := x.1 }, x.2.bytes) := by
  rw [step, round, h.cutoff (h.fields f hf).tag_ne_zero, h.field?_tag hf]
  simp only [Option.map_map]
  rfl

theorem step_unknown (m : Message F) {tag : UInt32} (htag : tag ≠ 0) (hnone : c.field? tag = none) (bytes : List UInt8) :
    c.step budget m tag bytes =
      (skipField (bytes.length + 1) budget tag (⟨bytes, false⟩ : Bytes)).map fun x =>
        ({ m with unknownFields := m.unknownFields ++ [x.1] }, x.2.bytes) := by
  rw [step, round, h.cutoff htag, hnone]
  simp only [Option.map_map]
  rfl

theorem reads_feeds {f : Field F} (hf : f ∈ c.fields) {a a' : F} {bytes : List UInt8} (hfeeds : f.Feeds budget a bytes a')
    (unknownFields : List UnknownField) : c.Reads budget ⟨a, unknownFields⟩ bytes ⟨a', unknownFields⟩ := by
  have hne := (h.fields f hf).tag_ne_zero
  induction hfeeds with
  | nil a => exact reads_nil _
  | cons hread _ ih =>
    intro rest
    rw [List.append_assoc, List.append_assoc, h.parse_tag _ hne, h.step_known _ hf, hread _ _ (Nat.lt_succ_self _)]
    simp only [Option.map_some, Option.bind_eq_bind, Option.bind_some]
    exact ih rest

theorem reads_unknown (a : F) {fields : List UnknownField} (hok : okUnknownFields budget fields = true)
    (hskips : ∀ u ∈ fields, Skips budget u) (hnone : ∀ u ∈ fields, c.field? u.tag = none)
    (unknownFields : List UnknownField) :
    c.Reads budget ⟨a, unknownFields⟩ (serializeUnknownFields fields) ⟨a, unknownFields ++ fields⟩ := by
  induction fields generalizing unknownFields with
  | nil =>
    rw [serializeUnknownFields, List.append_nil]
    exact reads_nil _
  | cons u fields ih =>
    rw [okUnknownFields_cons, Bool.and_eq_true] at hok
    have htag := UnknownField.tag_goes_on (UnknownField.isFieldNumber_of_ok hok.1)
    rw [not_or] at htag
    intro rest
    rw [serializeUnknownFields_cons, List.append_assoc, List.append_assoc, h.parse_tag _ htag.1,
      h.step_unknown _ htag.1 (hnone u List.mem_cons_self), hskips u List.mem_cons_self _ _ (Nat.lt_succ_self _)]
    simp only [Option.map_some, Option.bind_eq_bind, Option.bind_some]
    rw [ih hok.2 (fun v hv => hskips v (List.mem_cons_of_mem _ hv)) (fun v hv => hnone v (List.mem_cons_of_mem _ hv)) _ rest,
      List.append_assoc, List.singleton_append]

/-! ### The whole message -/

/-- The fields are read one after the other. -/
theorem reads_fields {m : F} (hok : ∀ f ∈ c.fields, f.ok budget m = true) (hsize : ∀ f ∈ c.fields, f.size m ≤ INT_MAX) (a : F)
    (unknownFields : List UnknownField) :
    c.Reads budget ⟨a, unknownFields⟩ (c.fields.flatMap (·.write m))
      ⟨c.fields.foldl (fun b f => f.mergeFrom b m) a, unknownFields⟩ := by
  have hall : ∀ fs : List (Field F), (∀ f ∈ fs, f ∈ c.fields) → ∀ a : F,
      c.Reads budget ⟨a, unknownFields⟩ (fs.flatMap (·.write m))
        ⟨fs.foldl (fun b f => f.mergeFrom b m) a, unknownFields⟩ := by
    intro fs
    induction fs with
    | nil => exact fun _ a => reads_nil _
    | cons f fs ih =>
      intro hmem a
      have hf := hmem f List.mem_cons_self
      have hfeeds := (h.fields f hf).feeds (hok f hf) (hsize f hf) a
      exact (h.reads_feeds hf hfeeds unknownFields).append (ih (fun g hg => hmem g (List.mem_cons_of_mem _ hg)) _)
  exact hall c.fields (fun _ hf => hf) a

/-- **`ByteSizeLong`** is the number of bytes. -/
theorem length_write (m : Message F) : (c.write m).length = c.size m := by
  have hfields : (c.fields.map (·.size m.fields)).sum = (c.fields.flatMap (·.write m.fields)).length := by
    rw [List.length_flatMap]
    exact congrArg List.sum (List.map_congr_left fun f hf => (h.fields f hf).size m.fields)
  rw [write, size, List.length_append, length_serializeUnknownFields, hfields]

/-- **The two serializers** write the same. -/
theorem emits (m : Message F) : bytesOf (c.emits m) = c.write m ∧ (c.size m ≤ INT_MAX → AllEven (c.emits m)) := by
  obtain ⟨hunknown, hunknownEven⟩ := emits_unknownFields m.unknownFields
  have hfields : ∀ fs : List (Field F), (∀ f ∈ fs, f.Lawful) →
      bytesOf (fs.flatMap (·.emits m.fields)) = fs.flatMap (·.write m.fields) ∧
        ((fs.map (·.size m.fields)).sum ≤ INT_MAX → AllEven (fs.flatMap (·.emits m.fields))) := by
    intro fs hfs
    induction fs with
    | nil => exact ⟨rfl, fun _ => trivial⟩
    | cons f fs ih =>
      obtain ⟨hbytes, heven⟩ := (hfs f List.mem_cons_self).emits m.fields
      obtain ⟨hrest, hrestEven⟩ := ih fun g hg => hfs g (List.mem_cons_of_mem _ hg)
      simp only [List.flatMap_cons, List.map_cons, List.sum_cons, bytesOf_append, allEven_append, hbytes, hrest, true_and]
      exact fun hsize => ⟨heven (by omega), hrestEven (by omega)⟩
  obtain ⟨hbytes, heven⟩ := hfields c.fields h.fields
  rw [Codec.emits, Codec.write, Codec.size, bytesOf_append, allEven_append, hbytes, hunknown]
  exact ⟨rfl, fun hsize => ⟨heven (by omega), hunknownEven⟩⟩

/-- **What was written is merged** with the message it is read into. -/
theorem reads_write {m : Message F} (hok : c.ok budget m = true) (hsize : c.size m ≤ INT_MAX) (a : Message F) :
    c.Reads budget a (c.write m) (c.mergeFrom a m) := by
  simp only [ok, Bool.and_eq_true, List.all_eq_true, Option.isNone_iff_eq_none] at hok
  obtain ⟨⟨hfields, hunknown⟩, hnone⟩ := hok
  have hpart : ∀ f ∈ c.fields, f.size m.fields ≤ INT_MAX := by
    intro f hf
    have hle : f.size m.fields ≤ (c.fields.map (·.size m.fields)).sum :=
      List.le_sum_of_mem (List.mem_map_of_mem hf)
    exact (hle.trans (Nat.le_add_right _ _)).trans hsize
  have hrest : computeUnknownFieldsSize m.unknownFields ≤ INT_MAX := (Nat.le_add_left _ _).trans hsize
  exact (h.reads_fields hfields hpart a.fields a.unknownFields).append
    (h.reads_unknown _ hunknown (skipsAll_of_ok hunknown hrest).1 hnone a.unknownFields)

/-- A new message takes what is merged with it. -/
theorem mergeFrom_new (m : Message F) : c.mergeFrom c.new m = m := by
  rw [mergeFrom, new, h.merge_default, List.nil_append]

/-- **Round trip.** -/
theorem parse_write {m : Message F} (hok : c.ok budget m = true) (hsize : c.size m ≤ INT_MAX) :
    c.parse budget c.new (c.write m) = some m := by
  rw [(h.reads_write hok hsize c.new).parse, h.mergeFrom_new]

/-! ### What is read -/

theorem ok_new (budget : ℕ) : c.ok budget c.new = true := by
  simp only [ok, new, Bool.and_eq_true, List.all_eq_true, List.not_mem_nil, false_implies, implies_true, and_true]
  exact ⟨fun f hf => h.default_ok f hf budget, by simp [okUnknownFields]⟩

theorem ok_step {m m' : Message F} {tag : UInt32} (htag : tag ≠ 0) {bytes rest : List UInt8} (hok : c.ok budget m = true)
    (hstep : c.step budget m tag bytes = some (m', rest)) : c.ok budget m' = true := by
  simp only [ok, Bool.and_eq_true, List.all_eq_true, Option.isNone_iff_eq_none] at hok ⊢
  obtain ⟨⟨hfields, hunknown⟩, hnone⟩ := hok
  cases hfound : c.field? tag with
  | some f =>
    obtain ⟨hf, rfl⟩ := mem_of_field? hfound
    rw [h.step_known m hf] at hstep
    obtain ⟨⟨a, t⟩, hread, heq⟩ := Option.map_eq_some_iff.mp hstep
    cases heq
    refine ⟨⟨fun g hg => ?_, hunknown⟩, hnone⟩
    by_cases hsame : f.tag = g.tag
    · rw [← List.inj_on_of_nodup_map h.nodup hf hg hsame]
      exact (h.fields f hf).valid (Nat.lt_succ_self _) (hfields f hf) hread
    · exact h.keeps f hf g hg hsame _ _ _ _ _ _ hread (hfields g hg)
  | none =>
    rw [h.step_unknown m htag hfound] at hstep
    obtain ⟨⟨u, t⟩, hread, heq⟩ := Option.map_eq_some_iff.mp hstep
    cases heq
    obtain ⟨hutag, hu⟩ := skipField_valid hread
    refine ⟨⟨hfields, by rw [okUnknownFields_append, hunknown, hu]; rfl⟩, fun v hv => ?_⟩
    rcases List.mem_append.mp hv with hv | hv
    · exact hnone v hv
    · rw [List.mem_singleton.mp hv, hutag, hfound]

/-- **What is read can be written**: it is read again from what is written of it. -/
theorem ok_parse {m m' : Message F} {bytes : List UInt8} (hok : c.ok budget m = true)
    (hparse : c.parse budget m bytes = some m') : c.ok budget m' = true := by
  induction hlen : bytes.length using Nat.strong_induction_on generalizing m bytes with
  | _ n ih =>
    by_cases hne : bytes = []
    · rw [hne, parse_nil] at hparse
      cases hparse
      exact hok
    · rw [parse_cons h.steady budget m hne] at hparse
      cases hdecode : Base128.decode 10 bytes with
      | none =>
        rw [hdecode] at hparse
        cases hparse
      | some x =>
        obtain ⟨k, rest⟩ := x
        rw [hdecode] at hparse
        simp only at hparse
        split at hparse
        · cases hparse
        · rename_i htag
          obtain ⟨⟨m₁, rest'⟩, hstep, hparse⟩ := Option.bind_eq_some_iff.mp hparse
          have hshort := Base128.decode_length hdecode
          obtain ⟨⟨m₂, t⟩, hround, heq⟩ := Option.map_eq_some_iff.mp hstep
          cases heq
          have hle := (takes_round h.steady _ budget m _ rest _ _ hround).2
          exact ih t.bytes.length (by omega) (h.ok_step htag hok hstep) hparse rfl

/-- **Fields that are not known** are carried along: the others are read as without them. -/
theorem parse_unknown (a : F) (us vs : List UnknownField) (bytes : List UInt8) :
    (c.parse budget ⟨a, us⟩ bytes).map Message.fields = (c.parse budget ⟨a, vs⟩ bytes).map Message.fields := by
  induction hlen : bytes.length using Nat.strong_induction_on generalizing a us vs bytes with
  | _ n ih =>
    by_cases hne : bytes = []
    · rw [hne, parse_nil, parse_nil]
      rfl
    · rw [parse_cons h.steady budget ⟨a, us⟩ hne, parse_cons h.steady budget ⟨a, vs⟩ hne]
      cases hdecode : Base128.decode 10 bytes with
      | none => rfl
      | some x =>
        obtain ⟨k, rest⟩ := x
        have hshort := Base128.decode_length hdecode
        simp only
        split
        · rfl
        · rename_i htag
          cases hfound : c.field? (UInt32.ofNat k) with
          | some f =>
            obtain ⟨hf, htag'⟩ := mem_of_field? hfound
            rw [← htag', h.step_known _ hf, h.step_known _ hf]
            cases hread : f.read (rest.length + 1) budget a (⟨rest, false⟩ : Bytes) with
            | none => simp only [Option.map_none, Option.bind_eq_bind, Option.bind_none]
            | some y =>
              have hle := ((h.fields f hf).steady.takes _ _ _ _ _ _ hread).2
              simp only [Option.map_some, Option.bind_eq_bind, Option.bind_some]
              exact ih _ (by omega) y.1 us vs y.2.bytes rfl
          | none =>
            rw [h.step_unknown _ htag hfound, h.step_unknown _ htag hfound]
            cases hread : skipField (rest.length + 1) budget (UInt32.ofNat k) (⟨rest, false⟩ : Bytes) with
            | none => simp only [Option.map_none, Option.bind_eq_bind, Option.bind_none]
            | some y =>
              have hle := (takes_skipField _ _ _ _ _ hread).2
              simp only [Option.map_some, Option.bind_eq_bind, Option.bind_some]
              exact ih _ (by omega) a (us ++ [y.1]) (vs ++ [y.1]) y.2.bytes rfl

end Lawful

end Codec

/-! ## The kinds of fields -/

/-- A tag of one byte. -/
theorem length_tag {tag : UInt32} (hlt : tag.toNat < 128) : (writeVarint32 tag).length = 1 := by
  rw [writeVarint32_eq, Base128.encode_small hlt, List.length_singleton]

namespace Field

/-- What is read is set. -/
def Sets {β : Type} (f : Field F) (set : F → β → F) : Prop :=
  ∀ (fuel budget : ℕ) (a a' : F) (s t : Bytes), f.read fuel budget a s = some (a', t) → ∃ v, a' = set a v

/-- A setter leaves a field as it can be written. -/
def KeptBy {β : Type} (g : Field F) (set : F → β → F) : Prop :=
  ∀ budget a v, g.ok budget a = true → g.ok budget (set a v) = true

/-- A field is kept by the setter of another. -/
theorem Sets.keeps {β : Type} {f g : Field F} {set : F → β → F} (h : f.Sets set) (hset : g.KeptBy set) : f.Keeps g := by
  intro fuel budget a a' s t hread hok
  obtain ⟨v, rfl⟩ := h fuel budget a a' s t hread
  exact hset budget a v hok

/-- One value is written. -/
theorem Feeds.single {f : Field F} {budget : ℕ} {a a' : F} {value : List UInt8}
    (hread : ∀ (rest : List UInt8) (fuel : ℕ), (value ++ rest).length < fuel →
      f.read fuel budget a (⟨value ++ rest, false⟩ : Bytes) = some (a', ⟨rest, false⟩)) :
    f.Feeds budget a (writeVarint32 f.tag ++ value) a' := by
  have hfeeds := Feeds.cons hread (Feeds.nil a')
  rwa [List.append_nil] at hfeeds

/-- What is written after a tag. -/
theorem emits_tag (tag : UInt32) {writes : List Write} {bytes : List UInt8} {size : ℕ}
    (h : bytesOf writes = bytes ∧ (size ≤ INT_MAX → AllEven writes)) :
    bytesOf ([.varint32 tag] ++ writes) = writeVarint32 tag ++ bytes ∧
      (1 + size ≤ INT_MAX → AllEven ([.varint32 tag] ++ writes)) := by
  refine ⟨?_, fun hsize => ?_⟩
  · rw [bytesOf_append, h.1]
    simp [bytesOf, Write.bytes]
  · rw [allEven_append]
    exact ⟨⟨trivial, trivial⟩, h.2 (by omega)⟩

/-! ### Values -/

section

variable {S : Scalar α} {tag : UInt32} {set : F → α → F}

theorem sets_scalar [DecidableEq α] {default : α} {get : F → α} : (scalar S default tag get set).Sets set := by
  intro fuel budget a a' s t hread
  obtain ⟨x, -, heq⟩ := Option.map_eq_some_iff.mp hread
  cases heq
  exact ⟨x.1, rfl⟩

theorem sets_optional {get : F → Option α} : (optional S tag get set).Sets set := by
  intro fuel budget a a' s t hread
  obtain ⟨x, -, heq⟩ := Option.map_eq_some_iff.mp hread
  cases heq
  exact ⟨x.1, rfl⟩

theorem lawful_scalar [DecidableEq α] (hS : S.Lawful) {default : α} {get : F → α} (hpos : 0 < tag.toNat)
    (hlt : tag.toNat < 128) (get_set : ∀ m v, get (set m v) = v) : (scalar S default tag get set).Lawful where
  agrees := agrees_scalar hS.agrees default tag get set
  steady := steady_scalar hS.steady default tag get set
  tag_pos := hpos
  tag_lt := hlt
  size m := by
    simp only [scalar]
    split
    · rfl
    · rw [List.length_append, length_tag hlt, hS.size]
  emits m := by
    simp only [scalar]
    split
    · exact ⟨rfl, fun _ => trivial⟩
    · exact emits_tag tag (hS.emits _)
  feeds {budget m} hok hsize a := by
    simp only [scalar] at hok hsize ⊢
    split
    · exact Feeds.nil a
    · rename_i hne
      rw [if_neg hne] at hsize
      refine Feeds.single (f := scalar S default tag get set) fun rest fuel _ => ?_
      simp only [scalar, hS.reads hok (by omega) rest, Option.map_some]
  valid {fuel budget a a' bytes t} _ _ hread := by
    obtain ⟨x, hx, heq⟩ := Option.map_eq_some_iff.mp hread
    cases heq
    simp only [scalar, get_set]
    exact hS.valid hx

theorem lawful_optional (hS : S.Lawful) {get : F → Option α} (hpos : 0 < tag.toNat) (hlt : tag.toNat < 128)
    (get_set : ∀ m v, get (set m v) = some v) : (optional S tag get set).Lawful where
  agrees := agrees_optional hS.agrees tag get set
  steady := steady_optional hS.steady tag get set
  tag_pos := hpos
  tag_lt := hlt
  size m := by
    simp only [optional]
    cases get m with
    | none => rfl
    | some v =>
      simp only
      rw [List.length_append, length_tag hlt, hS.size]
  emits m := by
    simp only [optional]
    cases get m with
    | none => exact ⟨rfl, fun _ => trivial⟩
    | some v => exact emits_tag tag (hS.emits v)
  feeds {budget m} hok hsize a := by
    simp only [optional] at hok hsize ⊢
    cases hget : get m with
    | none => exact Feeds.nil a
    | some v =>
      rw [hget] at hok hsize
      simp only [Option.all_some] at hok hsize
      refine Feeds.single (f := optional S tag get set) fun rest fuel _ => ?_
      simp only [optional, hS.reads hok (by omega) rest, Option.map_some]
  valid {fuel budget a a' bytes t} _ _ hread := by
    obtain ⟨x, hx, heq⟩ := Option.map_eq_some_iff.mp hread
    cases heq
    simp only [optional, get_set, Option.all_some]
    exact hS.valid hx

end

/-! ### Messages -/

section

variable {c : Codec G} (h : c.Lawful) {budget : ℕ}
include h

theorem length_writeMessage (n : Message G) : (writeMessage c n).length = lengthDelimitedSize (c.size n) := by
  rw [writeMessage, List.length_append, length_writeVarint32, h.length_write, lengthDelimitedSize, Nat.add_comm]

/-- A message inside a message is written the same in the two ways. -/
theorem emits_message (n : Message G) : bytesOf (emitMessage c n) = writeMessage c n ∧
    (lengthDelimitedSize (c.size n) ≤ INT_MAX → AllEven (emitMessage c n)) := by
  obtain ⟨hbytes, heven⟩ := h.emits n
  refine ⟨?_, fun hsize => ?_⟩
  · simp [emitMessage, bytesOf, Write.bytes, hbytes, writeMessage]
  · simp only [emitMessage, AllEven, Write.Even, true_and, and_true]
    exact ⟨hbytes.symm, (h.length_write n).symm, heven (length_le_of_size hsize)⟩

/-- A message inside a message is merged with the one it is read into. -/
theorem readMessage_write {n : Message G} (hok : okMessage c budget n = true) (hsize : c.size n ≤ INT_MAX) (a : Message G)
    {rest : List UInt8} {fuel : ℕ} (hfuel : (writeMessage c n ++ rest).length < fuel) :
    c.readMessage fuel budget a (⟨writeMessage c n ++ rest, false⟩ : Bytes) = some (c.mergeFrom a n, ⟨rest, false⟩) := by
  rcases budget with _ | budget
  · simp [okMessage] at hok
  · rw [Codec.readMessage_eq h.steady _ _ hfuel, writeMessage, List.append_assoc, readVarintSizeAsInt_write hsize]
    simp only [Option.bind_eq_bind, Option.bind_some]
    rw [← h.length_write, List.take_left, List.drop_left, (h.reads_write hok hsize a).parse, Option.map_some]

/-- A message that is read inside a message is as it can be written. -/
theorem readMessage_valid {fuel : ℕ} {a n : Message G} {bytes : List UInt8} {t : Bytes} (hfuel : bytes.length < fuel)
    (hok : a = c.new ∨ okMessage c budget a = true)
    (hread : c.readMessage fuel budget a (⟨bytes, false⟩ : Bytes) = some (n, t)) : okMessage c budget n = true := by
  rw [Codec.readMessage_eq h.steady _ _ hfuel] at hread
  obtain ⟨x, -, hparse⟩ := Option.bind_eq_some_iff.mp hread
  rcases budget with _ | budget
  · cases hparse
  · obtain ⟨m, hm, heq⟩ := Option.map_eq_some_iff.mp hparse
    cases heq
    refine h.ok_parse ?_ hm
    rcases hok with rfl | hok
    · exact h.ok_new budget
    · exact hok

end

section

variable {c : Codec G} {tag : UInt32}

theorem sets_message {get : F → Option (Message G)} {set : F → Message G → F} : (message c tag get set).Sets set := by
  intro fuel budget a a' s t hread
  obtain ⟨x, -, heq⟩ := Option.map_eq_some_iff.mp hread
  cases heq
  exact ⟨x.1, rfl⟩

theorem sets_repeated {get : F → List (Message G)} {set : F → List (Message G) → F} : (repeated c tag get set).Sets set := by
  intro fuel budget a a' s t hread
  obtain ⟨x, -, heq⟩ := Option.map_eq_some_iff.mp hread
  cases heq
  exact ⟨get a ++ [x.1], rfl⟩

/-- The size of a message inside a message. -/
theorem size_le_of_message {size bound : ℕ} (h : 1 + lengthDelimitedSize size ≤ bound) : size ≤ bound :=
  length_le_of_size ((Nat.le_add_left _ 1).trans h)

theorem lawful_message (hc : c.Lawful) {get : F → Option (Message G)} {set : F → Message G → F} (hpos : 0 < tag.toNat)
    (hlt : tag.toNat < 128) (get_set : ∀ m v, get (set m v) = some v) : (message c tag get set).Lawful where
  agrees := agrees_message hc.agrees tag get set
  steady := steady_message hc.steady tag get set
  tag_pos := hpos
  tag_lt := hlt
  size m := by
    simp only [message]
    cases get m with
    | none => rfl
    | some n =>
      simp only
      rw [List.length_append, length_tag hlt, length_writeMessage hc]
  emits m := by
    simp only [message]
    cases get m with
    | none => exact ⟨rfl, fun _ => trivial⟩
    | some n => exact emits_tag tag (emits_message hc n)
  feeds {budget m} hok hsize a := by
    simp only [message] at hok hsize ⊢
    cases hget : get m with
    | none => exact Feeds.nil a
    | some n =>
      rw [hget] at hok hsize
      simp only [Option.all_some] at hok hsize
      refine Feeds.single (f := message c tag get set) fun rest fuel hfuel => ?_
      simp only [message, readMessage_write hc hok (size_le_of_message hsize) _ hfuel, Option.map_some]
  valid {fuel budget a a' bytes t} hfuel hok hread := by
    obtain ⟨⟨n, u⟩, hx, heq⟩ := Option.map_eq_some_iff.mp hread
    cases heq
    simp only [message, get_set, Option.all_some]
    refine readMessage_valid hc hfuel ?_ hx
    cases hget : get a with
    | none => exact Or.inl rfl
    | some m =>
      simp only [message, hget, Option.all_some] at hok
      exact Or.inr hok

theorem lawful_repeated (hc : c.Lawful) {get : F → List (Message G)} {set : F → List (Message G) → F} (hpos : 0 < tag.toNat)
    (hlt : tag.toNat < 128) (get_set : ∀ m v, get (set m v) = v) (set_get : ∀ m, set m (get m) = m)
    (set_set : ∀ m v w, set (set m v) w = set m w) : (repeated c tag get set).Lawful where
  agrees := agrees_repeated hc.agrees tag get set
  steady := steady_repeated hc.steady tag get set
  tag_pos := hpos
  tag_lt := hlt
  size m := by
    simp only [repeated, List.length_flatMap, List.length_append, length_tag hlt, length_writeMessage hc]
  emits m := by
    simp only [repeated]
    induction get m with
    | nil => exact ⟨rfl, fun _ => trivial⟩
    | cons n ns ih =>
      obtain ⟨hbytes, heven⟩ := emits_tag tag (emits_message hc n)
      rw [List.flatMap_cons, List.map_cons, List.sum_cons, bytesOf_append, allEven_append, hbytes, ih.1]
      exact ⟨rfl, fun hsize => ⟨heven (by omega), ih.2 (by omega)⟩⟩
  feeds {budget m} hok hsize a := by
    simp only [repeated] at hok hsize ⊢
    generalize get m = ns at hok hsize ⊢
    induction ns generalizing a with
    | nil =>
      rw [List.append_nil, set_get]
      exact Feeds.nil a
    | cons n ns ih =>
      simp only [List.all_cons, Bool.and_eq_true] at hok
      simp only [List.map_cons, List.sum_cons] at hsize
      have htail := ih (set a (get a ++ [n])) hok.2 (by omega)
      rw [get_set, set_set, List.append_assoc, List.singleton_append] at htail
      rw [List.flatMap_cons, List.append_assoc]
      refine Feeds.cons (f := repeated c tag get set) (fun rest fuel hfuel => ?_) htail
      have hn : c.size n ≤ INT_MAX := size_le_of_message ((Nat.le_add_right _ _).trans hsize)
      simp only [repeated, readMessage_write hc hok.1 hn _ hfuel, Option.map_some, hc.mergeFrom_new]
  valid {fuel budget a a' bytes t} hfuel hok hread := by
    obtain ⟨⟨n, u⟩, hx, heq⟩ := Option.map_eq_some_iff.mp hread
    cases heq
    simp only [repeated, get_set, List.all_append, List.all_cons, List.all_nil, Bool.and_true, Bool.and_eq_true]
    exact ⟨hok, readMessage_valid hc hfuel (Or.inl rfl) hx⟩

end

/-! ### The laws for `simp`

A table of fields is lawful if each field is, if no setter spoils another field, and if the defaults are as they can be written.
Of a given table `simp` finds all of this with the lemmas below, whose conditions are about setters and getters alone. -/

section

variable {β : Type} {S : Scalar α} {c : Codec G} {tag : UInt32} {default : α} {set' : F → β → F} {g : Field F} {a b : F}

attribute [simp] Scalar.lawful_int32 Scalar.lawful_int64 Scalar.lawful_bytes Scalar.lawful_string lawful_scalar lawful_optional
  lawful_message lawful_repeated Codec.Lawful.mergeFrom_new

@[simp] theorem tag_scalar [DecidableEq α] {get : F → α} {set : F → α → F} : (scalar S default tag get set).tag = tag := rfl

@[simp] theorem tag_optional {get : F → Option α} {set : F → α → F} : (optional S tag get set).tag = tag := rfl

@[simp] theorem tag_message {get : F → Option (Message G)} {set : F → Message G → F} : (message c tag get set).tag = tag := rfl

@[simp] theorem tag_repeated {get : F → List (Message G)} {set : F → List (Message G) → F} :
    (repeated c tag get set).tag = tag := rfl

@[simp] theorem keeps_scalar [DecidableEq α] {get : F → α} {set : F → α → F} (h : g.KeptBy set) :
    (scalar S default tag get set).Keeps g := sets_scalar.keeps h

@[simp] theorem keeps_optional {get : F → Option α} {set : F → α → F} (h : g.KeptBy set) :
    (optional S tag get set).Keeps g := sets_optional.keeps h

@[simp] theorem keeps_message {get : F → Option (Message G)} {set : F → Message G → F} (h : g.KeptBy set) :
    (message c tag get set).Keeps g := sets_message.keeps h

@[simp] theorem keeps_repeated {get : F → List (Message G)} {set : F → List (Message G) → F} (h : g.KeptBy set) :
    (repeated c tag get set).Keeps g := sets_repeated.keeps h

@[simp] theorem keptBy_scalar [DecidableEq α] {get : F → α} {set : F → α → F} (h : ∀ m v, get (set' m v) = get m) :
    (scalar S default tag get set).KeptBy set' := by
  intro budget m v hok
  simpa only [scalar, h] using hok

@[simp] theorem keptBy_message {get : F → Option (Message G)} {set : F → Message G → F} (h : ∀ m v, get (set' m v) = get m) :
    (message c tag get set).KeptBy set' := by
  intro budget m v hok
  simpa only [message, h] using hok

@[simp] theorem keptBy_repeated {get : F → List (Message G)} {set : F → List (Message G) → F}
    (h : ∀ m v, get (set' m v) = get m) : (repeated c tag get set).KeptBy set' := by
  intro budget m v hok
  simpa only [repeated, h] using hok

/-- Another field of the same `oneof` is set. -/
@[simp] theorem keptBy_optional_none {get : F → Option α} {set : F → α → F} (h : ∀ m v, get (set' m v) = none) :
    (optional S tag get set).KeptBy set' := fun _ m v _ => by simp only [optional, h, Option.all_none]

@[simp] theorem keptBy_message_none {get : F → Option (Message G)} {set : F → Message G → F} (h : ∀ m v, get (set' m v) = none) :
    (message c tag get set).KeptBy set' := fun _ m v _ => by simp only [message, h, Option.all_none]

@[simp] theorem ok_scalar [DecidableEq α] {get : F → α} {set : F → α → F} (budget : ℕ) :
    (scalar S default tag get set).ok budget a = S.ok (get a) := rfl

@[simp] theorem ok_optional {get : F → Option α} {set : F → α → F} (budget : ℕ) :
    (optional S tag get set).ok budget a = (get a).all S.ok := rfl

@[simp] theorem ok_message {get : F → Option (Message G)} {set : F → Message G → F} (budget : ℕ) :
    (message c tag get set).ok budget a = (get a).all (okMessage c budget) := rfl

@[simp] theorem ok_repeated {get : F → List (Message G)} {set : F → List (Message G) → F} (budget : ℕ) :
    (repeated c tag get set).ok budget a = (get a).all (okMessage c budget) := rfl

@[simp] theorem ok_int32 (value : Int32) : Scalar.int32.ok value = true := rfl

@[simp] theorem ok_int64 (value : Int64) : Scalar.int64.ok value = true := rfl

@[simp] theorem ok_string (value : List UInt8) : Scalar.string.ok value = isStructurallyValidUTF8 value := rfl

@[simp] theorem isStructurallyValidUTF8_nil : isStructurallyValidUTF8 [] = true := rfl

/-- A field that is not written had its default value before. -/
@[simp] theorem mergeFrom_scalar [DecidableEq α] {get : F → α} {set : F → α → F} (h : set b default = b) :
    (scalar S default tag get set).mergeFrom b a = set b (get a) := by
  simp only [scalar]
  split
  · rename_i hget
    rw [hget, h]
  · rfl

@[simp] theorem mergeFrom_optional {get : F → Option α} {set : F → α → F} :
    (optional S tag get set).mergeFrom b a = (get a).elim b (set b) := by
  simp only [optional]
  cases get a <;> rfl

@[simp] theorem mergeFrom_message {get : F → Option (Message G)} {set : F → Message G → F} :
    (message c tag get set).mergeFrom b a = (get a).elim b fun n => set b (c.mergeFrom ((get b).getD c.new) n) := by
  simp only [message]
  cases get a <;> rfl

@[simp] theorem mergeFrom_repeated {get : F → List (Message G)} {set : F → List (Message G) → F} :
    (repeated c tag get set).mergeFrom b a = set b (get b ++ get a) := rfl

end

end Field

/-- A message is lawful if the table of its fields is, and if merging a message with an empty one gives this message. -/
theorem Codec.lawful_of_fields {c : Codec F}
    (hfields : (∀ f ∈ c.fields, f.Lawful ∧ ∀ budget, f.ok budget c.default = true) ∧ (c.fields.map (·.tag)).Nodup ∧
      ∀ f ∈ c.fields, ∀ g ∈ c.fields, f.tag ≠ g.tag → f.Keeps g)
    (hmerge : ∀ a, c.fields.foldl (fun b f => f.mergeFrom b a) c.default = a) : c.Lawful where
  fields f hf := (hfields.1 f hf).1
  nodup := hfields.2.1
  keeps := hfields.2.2
  default_ok f hf := (hfields.1 f hf).2
  merge_default := hmerge

/-! ## Over gRPC -/

namespace Codec

variable {c : Codec F}

/-- What `GenericSerialize` gives. -/
theorem serialize_eq_some {m : Message F} {bytes : List UInt8} :
    c.serialize m = some bytes ↔ c.size m ≤ INT_MAX ∧ c.write m = bytes := by
  unfold serialize
  split
  · rename_i hbig
    exact ⟨fun heq => (by cases heq), fun heq => absurd heq.1 (by omega)⟩
  · rename_i hsmall
    exact ⟨fun heq => ⟨by omega, by simpa using heq⟩, fun heq => by rw [heq.2]⟩

namespace Lawful

variable (h : c.Lawful)
include h

/-- `GenericDeserialize` reads the bytes of the slices, however they are cut. -/
theorem deserialize_eq_parse (slices : List (List UInt8)) :
    c.deserialize slices = c.parse recursionLimit c.new (slices.flatten.take INT_MAX) :=
  c.deserialize_eq h.agrees h.steady slices

/-- **Round trip over gRPC.** -/
theorem deserialize_serialize {m : Message F} (hok : c.ok recursionLimit m = true) {slices : List (List UInt8)}
    (hserialize : c.serialize m = some slices.flatten) : c.deserialize slices = some m := by
  obtain ⟨hsize, hwrite⟩ := serialize_eq_some.mp hserialize
  have hlen : slices.flatten.length ≤ INT_MAX := by rw [← hwrite, h.length_write]; exact hsize
  rw [h.deserialize_eq_parse, List.take_of_length_le hlen, ← hwrite, h.parse_write hok hsize]

/-- What was accepted is accepted again, and is the same. -/
theorem ok_deserialize {slices : List (List UInt8)} {m : Message F} (hread : c.deserialize slices = some m) :
    c.ok recursionLimit m = true := by
  rw [h.deserialize_eq_parse] at hread
  exact h.ok_parse (h.ok_new _) hread

end Lawful

end Codec

end SpeechlyPlugin.Proto
