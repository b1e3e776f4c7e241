import SpeechlyPlugin.Proto.Buffered
import SpeechlyPlugin.Proto.Views

/-!
# Requests are sent

`GenericSerialize` gives gRPC the bytes of a request in slices of at most a megabyte, or in one small slice.  Whichever of its
ways it takes, no assertion fails, the slices hold the bytes of the request, and all of them have been written.
-/

namespace SpeechlyPlugin.Proto

variable {F : Type}

/-- Slices of which every byte has been written. -/
theorem exists_written {slices : List (List (Option UInt8))} {bytes : List UInt8} (h : slices.flatten = bytes.map some) :
    ∃ written : List (List UInt8), slices = written.map (·.map some) ∧ written.flatten = bytes := by
  induction slices generalizing bytes with
  | nil => exact ⟨[], rfl, (List.map_eq_nil_iff.mp h.symm).symm⟩
  | cons slice slices ih =>
    rw [List.flatten_cons] at h
    obtain ⟨first, rest, rfl, rfl, hrest⟩ := List.map_eq_append_iff.mp h.symm
    obtain ⟨written, rfl, rfl⟩ := ih hrest.symm
    exact ⟨first :: written, rfl, rfl⟩

/-- What a message is sent as. -/
theorem Codec.Lawful.genericSerialize_eq {c : Codec F} (h : c.Lawful) (refcounted : ℕ → Bool) {m : Message F}
    (hsize : c.size m ≤ INT_MAX) : ∃ slices : List (List UInt8),
      c.genericSerialize refcounted m = .ok (slices.map (·.map some)) ∧ c.serialize m = some slices.flatten := by
  obtain ⟨hbytes, heven⟩ := h.emits m
  have hlength : c.size m = (bytesOf (c.emits m)).length := by rw [hbytes, h.length_write]
  obtain ⟨slices, hslices, hflatten⟩ := genericSerialize_holds hlength (heven hsize) hsize refcounted
  rw [hbytes] at hslices hflatten
  obtain ⟨written, rfl, hwritten⟩ := exists_written hflatten
  exact ⟨written, hslices, Codec.serialize_eq_some.mpr ⟨hsize, hwritten.symm⟩⟩

/-- **Requests are sent.**  Every request of the plugin, with fields of any lengths and messages inside it that end in one slice
or go over several, is given to gRPC as the bytes of its `InternalSerializeWithCachedSizesToArray`: the writer is asked for no
more than was announced, nothing is written behind the end of a slice, no number overflows, and no byte is sent that was not
written. -/
theorem requests_are_sent (refcounted : ℕ → Bool) :
    (∀ m, SLURequest.codec.size m ≤ INT_MAX → ∃ slices : List (List UInt8),
        SLURequest.codec.genericSerialize refcounted m = .ok (slices.map (·.map some)) ∧
          SLURequest.codec.serialize m = some slices.flatten) ∧
      (∀ m, WLURequest.codec.size m ≤ INT_MAX → ∃ slices : List (List UInt8),
        WLURequest.codec.genericSerialize refcounted m = .ok (slices.map (·.map some)) ∧
          WLURequest.codec.serialize m = some slices.flatten) ∧
      ∀ m, LoginRequest.codec.size m ≤ INT_MAX → ∃ slices : List (List UInt8),
        LoginRequest.codec.genericSerialize refcounted m = .ok (slices.map (·.map some)) ∧
          LoginRequest.codec.serialize m = some slices.flatten :=
  ⟨fun _ => SLURequest.lawful.genericSerialize_eq refcounted, fun _ => WLURequest.lawful.genericSerialize_eq refcounted,
    fun _ => LoginRequest.lawful.genericSerialize_eq refcounted⟩

theorem SLURequest.size_audio (bytes : List UInt8) :
    SLURequest.codec.size (SLURequest.ofEngine (.audio bytes)) = 1 + lengthDelimitedSize bytes.length := by
  simp [SLURequest.ofEngine, SLURequest.codec, Field.message, Field.optional, Scalar.bytes]

/-- Audio of several megabytes goes over several slices; here short tails of slices have no reference count. -/
theorem requests_are_sent_audio :
    ∃ (bytes : List UInt8) (slices : List (List UInt8)), bytes.length = 3000000 ∧
      SLURequest.codec.genericSerialize (fun count => GRPC_SLICE_INLINED_SIZE < count)
        (SLURequest.ofEngine (.audio bytes)) = .ok (slices.map (·.map some)) ∧
      (SLURequest.codec.deserialize slices).bind SLURequest.toEngine = some (.audio bytes) := by
  obtain ⟨bytes, hlength⟩ : ∃ bytes : List UInt8, bytes.length = 3000000 := ⟨List.replicate 3000000 7, List.length_replicate⟩
  have hsize : SLURequest.codec.size (SLURequest.ofEngine (.audio bytes)) ≤ INT_MAX := by
    rw [SLURequest.size_audio, hlength]
    decide +kernel
  obtain ⟨slices, hsent, hserialize⟩ := (requests_are_sent fun count => GRPC_SLICE_INLINED_SIZE < count).1 _ hsize
  have hfits : Fits (.audio bytes) := trivial
  exact ⟨bytes, slices, hlength, hsent, (SLURequest.request_arrives hfits hserialize).2⟩

end SpeechlyPlugin.Proto
