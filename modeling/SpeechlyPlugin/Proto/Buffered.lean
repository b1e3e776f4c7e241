import SpeechlyPlugin.Proto.Output
import SpeechlyPlugin.Proto.Written
import Mathlib.Data.List.ModifyLast

/-!
# The slices hold what was written

The invariant of a stream: its slices hold the bytes written so far, then what is left of the buffer.  As long as no more is
written than has been announced, every call keeps it, whether it writes into the buffer at once or goes on in new slices.
-/

namespace SpeechlyPlugin.Proto

open Lib

namespace ProtoBufferWriter

variable {w : ProtoBufferWriter}

/-- A new slice is not empty, and no longer than what is needed but for the smallest ones. -/
theorem next_new (hbackup : w.backup = none) (hblock : w.blockSize = kProtoBufferWriterMaxBufferLength)
    (hlt : w.byteCount < w.totalSize) (htotal : w.totalSize ≤ INT_MAX)
    (hblocks : kProtoBufferWriterMaxBufferLength ∣ w.byteCount) :
    ∃ n, 0 < n ∧ w.byteCount + n ≤ INT_MAX ∧
      w.next = .ok (n, { w with byteCount := w.byteCount + n, slices := w.slices ++ [List.replicate n none], backup := none }) ∧
      (w.totalSize ≤ w.byteCount + n ∨ kProtoBufferWriterMaxBufferLength ∣ w.byteCount + n) := by
  obtain ⟨k, hk⟩ := hblocks
  simp only [kProtoBufferWriterMaxBufferLength, INT_MAX] at *
  refine ⟨(w.nextSlice (w.totalSize - w.byteCount)).length, ?_⟩
  have hslice : w.nextSlice (w.totalSize - w.byteCount) =
      List.replicate (w.nextSlice (w.totalSize - w.byteCount)).length none := by
    simp only [nextSlice, hbackup, List.length_replicate]
  have hlength : (w.nextSlice (w.totalSize - w.byteCount)).length =
      if 1048576 < w.totalSize - w.byteCount then 1048576
      else if 23 < w.totalSize - w.byteCount then w.totalSize - w.byteCount else 24 := by
    simp only [nextSlice, hbackup, hblock, GRPC_SLICE_INLINED_SIZE, List.length_replicate]
    split <;> rfl
  generalize (w.nextSlice (w.totalSize - w.byteCount)).length = n at hslice hlength ⊢
  have hbounds : 0 < n ∧ w.byteCount + n ≤ 2147483647 ∧ (w.totalSize ≤ w.byteCount + n ∨ n = 1048576) := by
    split at hlength
    · omega
    · split at hlength <;> omega
  refine ⟨hbounds.1, hbounds.2.1, ?_, hbounds.2.2.imp_right fun hn => ⟨k + 1, by omega⟩⟩
  rw [next, if_neg (by omega)]
  simp only [hslice, List.length_replicate, INT_MAX]
  rw [if_neg (by omega)]

theorem store_slices {closed : List (List (Option UInt8))} {filled free : List (Option UInt8)} {bytes : List UInt8}
    (h : w.slices = closed ++ [filled ++ free]) :
    (w.store free.length bytes).slices = closed ++ [(filled ++ bytes.map some) ++ free.drop bytes.length] := by
  simp only [store, h, List.modifyLast_concat]
  simp

end ProtoBufferWriter

namespace CodedOutputStream

/-- The slices of the stream hold the bytes `done`, then its buffer; `total` bytes have been announced. -/
structure Holds (out : CodedOutputStream) (total : ℕ) (done : List UInt8) : Prop where
  slices : ∃ closed filled free, out.output.slices = closed ++ [filled ++ free] ∧ closed.flatten ++ filled = done.map some ∧
    free.length = out.bufferSize
  byteCount : out.output.byteCount = done.length + out.bufferSize
  totalBytes : out.totalBytes = out.output.byteCount
  totalSize : out.output.totalSize = total
  blockSize : out.output.blockSize = kProtoBufferWriterMaxBufferLength
  backup : out.output.backup = none
  blocks : total ≤ out.output.byteCount ∨ kProtoBufferWriterMaxBufferLength ∣ out.output.byteCount

variable {out : CodedOutputStream} {total : ℕ} {done data : List UInt8}

/-- Bytes for which there is room. -/
theorem Holds.copy (h : out.Holds total done) (data : List UInt8) (hroom : data.length ≤ out.bufferSize) :
    ∃ filled, out.copy data = .ok filled ∧ (filled.advance data.length).Holds total (done ++ data) := by
  obtain ⟨closed, filled, free, hslices, hdone, hfree⟩ := h.slices
  refine ⟨{ out with output := out.output.store out.bufferSize data },
    by rw [CodedOutputStream.copy, if_neg (by omega)], ?_⟩
  refine ⟨⟨closed, filled ++ data.map some, free.drop data.length, ?_, ?_, ?_⟩, ?_, h.totalBytes, h.totalSize, h.blockSize,
    h.backup, h.blocks⟩
  · show (out.output.store out.bufferSize data).slices = _
    rw [← hfree]
    exact ProtoBufferWriter.store_slices hslices
  · rw [← List.append_assoc, hdone, List.map_append]
  · rw [List.length_drop, hfree]
    rfl
  · have hcount := h.byteCount
    show out.output.byteCount = (done ++ data).length + (out.bufferSize - data.length)
    rw [List.length_append]
    omega

theorem Holds.copy_advance (h : out.Holds total done) (data : List UInt8) (hroom : data.length ≤ out.bufferSize) :
    ∃ out', (do let filled ← out.copy data; return filled.advance data.length) = .ok out' ∧
      out'.Holds total (done ++ data) := by
  obtain ⟨filled, hcopy, hfilled⟩ := h.copy data hroom
  refine ⟨_, ?_, hfilled⟩
  rw [hcopy]
  rfl

/-- A new slice, where more is still to be written. -/
theorem Holds.refresh (h : out.Holds total done) (hfull : out.bufferSize = 0) (hmore : done.length < total)
    (htotal : total ≤ INT_MAX) : ∃ out', out.refresh = .ok out' ∧ out'.Holds total done ∧ 0 < out'.bufferSize := by
  have hcount := h.byteCount
  have hlt : out.output.byteCount < out.output.totalSize := by
    rw [h.totalSize]
    omega
  have hblocks := h.blocks.resolve_left (by rw [← h.totalSize]; omega)
  obtain ⟨n, hpos, hmax, hnext, hblocks'⟩ := ProtoBufferWriter.next_new h.backup h.blockSize hlt (h.totalSize ▸ htotal) hblocks
  obtain ⟨closed, filled, free, hslices, hdone, hfree⟩ := h.slices
  rw [hfull, List.length_eq_zero_iff] at hfree
  subst hfree
  have htotals := h.totalBytes
  rw [h.totalSize] at hblocks'
  -- the buffer is used up, so the last slice is all written and the new one begins after it
  refine ⟨⟨{ out.output with
      byteCount := out.output.byteCount + n, slices := out.output.slices ++ [List.replicate n none], backup := none },
    n, out.totalBytes + n⟩, ?_, ⟨⟨closed ++ [filled], [], List.replicate n none, ?_, ?_, List.length_replicate⟩, ?_, ?_,
    h.totalSize, h.blockSize, rfl, hblocks'⟩, hpos⟩
  · rw [CodedOutputStream.refresh, hnext]
    show (if INT_MAX < out.totalBytes + n then _ else _) = _
    rw [if_neg (by omega)]
  · show out.output.slices ++ [List.replicate n none] = _
    rw [hslices, List.append_nil, List.nil_append]
  · simpa using hdone
  · show out.output.byteCount + n = done.length + n
    omega
  · show out.totalBytes + n = out.output.byteCount + n
    omega

/-- **`WriteRaw`**, over as many slices as it takes. -/
theorem Holds.writeRawLoop {rounds : ℕ} (h : out.Holds total done) (hfits : done.length + data.length ≤ total)
    (htotal : total ≤ INT_MAX) (hrounds : data.length + (if out.bufferSize = 0 then 1 else 0) < rounds) :
    ∃ out', writeRawLoop rounds data out = .ok out' ∧ out'.Holds total (done ++ data) := by
  -- only the first round may find the buffer full: a new slice takes at least one byte
  induction rounds generalizing out done data with
  | zero => omega
  | succ rounds ih =>
    rw [CodedOutputStream.writeRawLoop]
    split
    · rename_i hlong
      have htake : (data.take out.bufferSize).length = out.bufferSize := by
        rw [List.length_take]
        omega
      obtain ⟨filled, hcopy, hfilled⟩ := h.copy (data.take out.bufferSize) (by omega)
      rw [htake] at hfilled
      have hfull : (filled.advance out.bufferSize).bufferSize = 0 := by
        rw [CodedOutputStream.copy, if_neg (by omega)] at hcopy
        cases hcopy
        exact Nat.sub_self _
      have hmore : (done ++ data.take out.bufferSize).length < total := by
        rw [List.length_append]
        omega
      obtain ⟨out', hrefresh, hout', hpos⟩ := hfilled.refresh hfull hmore htotal
      have hdrop : (data.drop out.bufferSize).length = data.length - out.bufferSize := List.length_drop
      have hfits' : (done ++ data.take out.bufferSize).length + (data.drop out.bufferSize).length ≤ total := by
        rw [List.length_append]
        omega
      have hrounds' : (data.drop out.bufferSize).length + (if out'.bufferSize = 0 then 1 else 0) < rounds := by
        rw [if_neg (by omega)]
        split at hrounds <;> omega
      obtain ⟨out'', hloop, hout''⟩ := ih hout' hfits' hrounds'
      refine ⟨out'', ?_, ?_⟩
      · rw [hcopy]
        show (filled.refresh >>= fun refreshed => _) = _
        have hsame : filled.refresh = (filled.advance out.bufferSize).refresh := rfl
        rw [hsame, hrefresh]
        exact hloop
      · rwa [List.append_assoc, List.take_append_drop] at hout''
    · exact h.copy_advance data (by omega)

theorem Holds.writeRaw (h : out.Holds total done) (hfits : done.length + data.length ≤ total) (htotal : total ≤ INT_MAX) :
    ∃ out', out.writeRaw data = .ok out' ∧ out'.Holds total (done ++ data) :=
  h.writeRawLoop hfits htotal (by split <;> omega)

/-- **The fast way and the slow way** write the same. -/
theorem Holds.writeFast {room : ℕ} (h : out.Holds total done) (hroom : data.length ≤ room)
    (hfits : done.length + data.length ≤ total) (htotal : total ≤ INT_MAX) :
    ∃ out', out.writeFast room data = .ok out' ∧ out'.Holds total (done ++ data) := by
  unfold CodedOutputStream.writeFast
  split
  · exact h.copy_advance data (by omega)
  · exact h.writeRaw hfits htotal

/-- The constructor. -/
theorem holds_new (hpos : 0 < total) (htotal : total ≤ INT_MAX) :
    ∃ out, new (.new kProtoBufferWriterMaxBufferLength total) = .ok out ∧ out.Holds total [] := by
  obtain ⟨n, hn, hmax, hnext, hblocks⟩ := @ProtoBufferWriter.next_new (.new kProtoBufferWriterMaxBufferLength total) rfl rfl
    hpos htotal (dvd_zero _)
  refine ⟨⟨⟨kProtoBufferWriterMaxBufferLength, total, 0 + n, [List.replicate n none], none⟩, n, 0 + n⟩, ?_,
    ⟨⟨[], [], List.replicate n none, rfl, rfl, List.length_replicate⟩, rfl, rfl, rfl, rfl, rfl, hblocks⟩⟩
  rw [new, CodedOutputStream.refresh, hnext]
  have hsmall : ¬INT_MAX < 0 + n := Nat.not_lt.mpr hmax
  exact if_neg hsmall

/-- `Trim` leaves the bytes. -/
theorem Holds.trim (h : out.Holds total done) (refcounted : ℕ → Bool) :
    ∃ out', out.trim refcounted = .ok out' ∧ out'.output.slices.flatten = done.map some := by
  obtain ⟨closed, filled, free, hslices, hdone, hfree⟩ := h.slices
  unfold CodedOutputStream.trim
  split
  · have hlast : out.output.slices.getLastD [] = filled ++ free := by rw [hslices]; simp
    have hinit : out.output.slices.dropLast = closed := by rw [hslices]; simp
    have hsplit : (filled ++ free).length - out.bufferSize = filled.length := by
      rw [List.length_append]
      omega
    have hkept : (closed ++ if filled.length = 0 then [] else [filled]).flatten = done.map some := by
      rw [← hdone]
      split
      · rename_i hnil
        rw [List.length_eq_zero_iff.mp hnil, List.append_nil, List.append_nil]
      · rw [List.flatten_append, List.flatten_singleton]
    have hbackUp : ∃ output, out.output.backUp refcounted out.bufferSize = .ok output ∧
        output.slices = closed ++ if filled.length = 0 then [] else [filled] := by
      refine ⟨{ out.output with
        byteCount := out.output.byteCount - out.bufferSize
        slices := closed ++ if filled.length = 0 then [] else [filled]
        backup := if filled.length = 0 || refcounted out.bufferSize then some free else none }, ?_, rfl⟩
      rw [ProtoBufferWriter.backUp, hlast, hinit, if_neg (by rw [List.length_append]; omega)]
      simp only [hsplit, List.take_left, List.drop_left]
    obtain ⟨output, hbackUp, hslices⟩ := hbackUp
    refine ⟨⟨output, 0, out.totalBytes - out.bufferSize⟩, ?_, hslices ▸ hkept⟩
    rw [hbackUp]
    rfl
  · refine ⟨out, rfl, ?_⟩
    obtain rfl : free = [] := List.length_eq_zero_iff.mp (by omega)
    rw [hslices, List.append_nil, List.flatten_append, List.flatten_singleton, hdone]

end CodedOutputStream

/-! ## What is written -/

mutual

/-- A call writes its bytes. -/
theorem Write.run_holds {total : ℕ} (htotal : total ≤ INT_MAX) : ∀ (write : Write) {out : CodedOutputStream} {done : List UInt8},
    write.Even → out.Holds total done → done.length + write.bytes.length ≤ total →
      ∃ out', write.run out = .ok out' ∧ out'.Holds total (done ++ write.bytes)
  | .varint32 value, out, done, _, h, hfits => by
    refine h.writeFast ?_ hfits htotal
    rw [writeVarint32_eq]
    exact Base128.length_encode_le (lt_of_lt_of_le value.toNat_lt (by norm_num))
  | .varint64 value, out, done, _, h, hfits => by
    refine h.writeFast ?_ hfits htotal
    rw [writeVarint64_eq]
    exact Base128.length_encode_le (lt_of_lt_of_le value.toNat_lt (by norm_num))
  | .littleEndian size value, out, done, _, h, hfits => h.writeFast (by simp [writeLittleEndian]) hfits htotal
  | .checkSize length, out, done, heven, h, _ => by
    refine ⟨out, if_neg (Nat.not_lt.mpr heven), ?_⟩
    rwa [Write.bytes, List.append_nil]
  | .raw bytes, out, done, _, h, hfits => h.writeRaw hfits htotal
  | .message size array writes, out, done, heven, h, hfits => by
    obtain ⟨rfl, rfl, heven⟩ := heven
    rw [Write.run]
    split
    · exact h.copy_advance (bytesOf writes) ‹_›
    · exact runAll_holds htotal writes heven h hfits

/-- **The calls write their bytes.** -/
theorem runAll_holds {total : ℕ} (htotal : total ≤ INT_MAX) : ∀ (writes : List Write) {out : CodedOutputStream}
    {done : List UInt8}, AllEven writes → out.Holds total done → done.length + (bytesOf writes).length ≤ total →
      ∃ out', runAll writes out = .ok out' ∧ out'.Holds total (done ++ bytesOf writes)
  | [], out, done, _, h, _ => ⟨out, rfl, by rwa [bytesOf, List.append_nil]⟩
  | write :: writes, out, done, heven, h, hfits => by
    rw [bytesOf, List.length_append] at hfits
    obtain ⟨out', hrun, hout'⟩ := write.run_holds htotal heven.1 h (by omega)
    obtain ⟨out'', hrest, hout''⟩ := runAll_holds htotal writes heven.2 hout' (by rw [List.length_append]; omega)
    refine ⟨out'', ?_, by rwa [bytesOf, ← List.append_assoc]⟩
    rw [runAll, hrun]
    exact hrest

end

/-- **`GenericSerialize`** gives slices that hold the bytes of the message, whichever way they were written, and no byte that
was not. -/
theorem genericSerialize_holds {size : ℕ} {writes : List Write} (hsize : size = (bytesOf writes).length)
    (heven : AllEven writes) (hmax : size ≤ INT_MAX) (refcounted : ℕ → Bool) :
    ∃ slices, genericSerialize refcounted size (bytesOf writes) writes = .ok slices ∧
      slices.flatten = (bytesOf writes).map some := by
  rw [genericSerialize, if_neg (Nat.not_lt.mpr hmax)]
  split
  · exact ⟨_, if_pos hsize.symm, by simp⟩
  · rename_i hlarge
    obtain ⟨out, hnew, hout⟩ := CodedOutputStream.holds_new (by omega : 0 < size) hmax
    have hwritten : ∃ out', serializeToCodedStream size (bytesOf writes) writes out = .ok out' ∧
        out'.Holds size (bytesOf writes) := by
      unfold serializeToCodedStream
      split
      · obtain ⟨filled, hcopy, hfilled⟩ := hout.copy (bytesOf writes) (by omega)
        rw [List.nil_append, ← hsize] at hfilled
        refine ⟨_, ?_, hfilled⟩
        rw [hcopy]
        exact if_pos hsize.symm
      · obtain ⟨out', hrun, hout'⟩ := runAll_holds hmax writes heven hout (by simp [hsize])
        rw [List.nil_append] at hout'
        refine ⟨out', ?_, hout'⟩
        have hbefore := hout.byteCount
        have hafter := hout'.byteCount
        have htotals := hout.totalBytes
        have htotals' := hout'.totalBytes
        rw [hrun]
        refine if_pos ?_
        simp only [CodedOutputStream.byteCount, List.length_nil] at *
        omega
    obtain ⟨out', hserialize, hout'⟩ := hwritten
    obtain ⟨trimmed, htrim, hslices⟩ := hout'.trim refcounted
    refine ⟨trimmed.output.slices, ?_, hslices⟩
    rw [hnew]
    show (serializeToCodedStream size (bytesOf writes) writes out >>= fun out => _) = _
    rw [hserialize]
    show (out'.trim refcounted >>= fun out => _) = _
    rw [htrim]
    rfl

end SpeechlyPlugin.Proto
