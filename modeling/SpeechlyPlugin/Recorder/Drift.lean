import SpeechlyPlugin.Recorder.Stream
import Mathlib.Algebra.Order.Archimedean.Basic

/-!
# The phase of the resampler

Every capture starts its windows at the front of the carried-over buffer, that is at `RoundToInt(R * K)` for the `K`
samples of the previous capture, while the exact grid would go on at `R * K`.  The difference is never made good: the
start of the `k`-th window stays within one sample of `R * k` in every run exactly when the ratio is a whole number or
the reciprocal of one, and grows without bound in some run for every other ratio.
-/

namespace SpeechlyPlugin.Recorder

open Engine Lib SpeechRecorder

/-! ## One capture at a rational ratio -/

section Step

variable {filter : List ℚ} {ratio : ℚ} {S : List ℚ} {t : Trace}

/-- The carry-over that keeps the next capture safe. -/
structure Steady (filter : List ℚ) (ratio : ℚ) (t : Trace) : Prop where
  lower : (filter.length : ℚ) - ratio - 1 / 2 < t.recorder.buffer.length
  upper : t.recorder.buffer.length ≤ filter.length

theorem Steady.enough (h : Steady filter ratio t) {n : ℕ} (hn : 1 ≤ n) :
    (filter.length : ℚ) - ratio < (t.recorder.buffer.length + n : ℕ) := by
  have := h.lower
  have hn' : (1 : ℚ) ≤ n := by exact_mod_cast hn
  push_cast
  linarith

/-- **One capture at a rational ratio**: the number of new windows, their starts, and the new base. -/
theorem steady_capture (hF : Follows filter ratio S t) (h0 : 0 < ratio) (hR : ratio ≤ filter.length - 1) (c : Capture)
    (hn : (filter.length : ℚ) - ratio < (t.recorder.buffer.length + c.numFrames : ℕ)) :
    ∃ t', ∃ k : ℕ, t.recorder.outputLength (t.recorder.buffer.length + c.numFrames) = k ∧
      t.capture c = .ok t' ∧ Follows filter ratio (S ++ c.firstChannel) t' ∧ Steady filter ratio t' ∧
      t'.starts = t.starts ++ ((List.range k).map (windowOffset ratio)).map (t.base + ·) ∧
      (t'.base : ℤ) = t.base + round (ratio * k) := by
  set num := t.recorder.buffer.length + c.numFrames with hnum
  have hr0 : 0 < t.recorder.sampleRatio := by rw [hF.ratio_eq]; exact h0
  have hK : 0 ≤ t.recorder.outputLength num := by
    rw [outputLength_nonneg_iff _ hr0, hF.filter_eq, hF.ratio_eq]
    exact hn
  have hlow := t.recorder.carry_le hr0 num
  have hhigh := t.recorder.lt_carry hr0 num
  rw [hF.filter_eq] at hlow hhigh
  rw [hF.ratio_eq] at hhigh
  have hle : t.recorder.remainingOffset num ≤ num := by
    have : (t.recorder.remainingOffset num : ℚ) < (num : ℤ) := by push_cast; linarith
    exact_mod_cast this.le
  obtain ⟨t', hcap, hF', hstarts, hbase, hbuf⟩ := hF.capture h0 c hK (by rw [← hnum]; omega)
  rw [← hnum] at hstarts hbase hbuf
  obtain ⟨k, hk⟩ := Int.eq_ofNat_of_zero_le hK
  refine ⟨t', k, hk, hcap, hF', ⟨?_, by omega⟩, ?_, ?_⟩
  · have hbuf' : (t'.recorder.buffer.length : ℚ) = num - t.recorder.remainingOffset num := by
      rw [hnum]
      exact_mod_cast hbuf
    rw [hbuf']
    linarith
  · rw [hstarts]
    unfold SpeechRecorder.offsets
    rw [hk, hF.ratio_eq]
    rfl
  · rw [hbase]
    unfold remainingOffset
    rw [roundToInt_eq_round, hk, hF.ratio_eq]
    rfl

end Step

/-! ## The property -/

/-- The windows of every run after `Start` whose first capture fills the filter, and whose later captures are not empty,
begin within one sample of the exact grid. -/
def NoDrift (r : SpeechRecorder) : Prop :=
  ∀ (c : Capture) (cs : List Capture), r.filter.length ≤ c.numFrames → (∀ d ∈ cs, 1 ≤ d.numFrames) →
    ∃ t, (Trace.begin r).run (c :: cs) = .ok t ∧
      delivered t.calls = windows r.filter (signal (c :: cs)) t.starts ∧
      ∀ k p : ℕ, t.starts[k]? = some p → |(p : ℚ) - r.sampleRatio * k| ≤ 1

/-! ## Ratios without drift -/

section Exact

variable {filter : List ℚ} {ratio : ℚ} {S : List ℚ} {t : Trace}

/-- The windows so far are on the grid, up to their own rounding, and the base is exactly on it. -/
structure OnGrid (ratio : ℚ) (t : Trace) : Prop where
  base_eq : (t.base : ℚ) = ratio * t.starts.length
  near : ∀ k p : ℕ, t.starts[k]? = some p → |(p : ℚ) - ratio * k| ≤ 1

theorem windowOffset_near (h0 : 0 ≤ ratio) (i : ℕ) : |(windowOffset ratio i : ℚ) - ratio * i| ≤ 1 := by
  have hcast : (windowOffset ratio i : ℚ) = round (ratio * i) := by
    have := windowOffset_cast h0 i
    rw [roundToInt_eq_round] at this
    exact_mod_cast this
  have h := abs_sub_round (ratio * i)
  rw [hcast, abs_sub_comm]
  linarith

theorem onGrid_capture (hF : Follows filter ratio S t) (hG : OnGrid ratio t) (h0 : 0 < ratio)
    (hR : ratio ≤ filter.length - 1) (hint : ∃ n : ℕ, 0 < n ∧ (ratio = n ∨ ratio * n = 1)) (c : Capture)
    (hn : (filter.length : ℚ) - ratio < (t.recorder.buffer.length + c.numFrames : ℕ)) :
    ∃ t', t.capture c = .ok t' ∧ Follows filter ratio (S ++ c.firstChannel) t' ∧ Steady filter ratio t' ∧
      OnGrid ratio t' := by
  obtain ⟨t', k, hk, hcap, hF', hS', hstarts, hbase⟩ := steady_capture hF h0 hR c hn
  have hhop : (round (ratio * k) : ℚ) = ratio * k := by
    rw [outputLength_eq, hF.filter_eq, hF.ratio_eq] at hk
    obtain ⟨m, hm⟩ := hop_int hint (((t.recorder.buffer.length + c.numFrames : ℕ) : ℤ) - filter.length)
    rw [hk, Int.cast_natCast] at hm
    rw [hm, round_intCast]
  have hlen : t'.starts.length = t.starts.length + k := by simp [hstarts]
  refine ⟨t', hcap, hF', hS', ⟨?_, ?_⟩⟩
  · have hbase' : (t'.base : ℚ) = t.base + round (ratio * k) := by exact_mod_cast hbase
    rw [hbase', hhop, hG.base_eq, hlen]
    push_cast
    ring
  · intro j p hp
    rw [hstarts] at hp
    rcases lt_or_ge j t.starts.length with hj | hj
    · rw [List.getElem?_append_left hj] at hp
      exact hG.near j p hp
    · rw [List.getElem?_append_right hj, List.getElem?_map, List.getElem?_map] at hp
      obtain ⟨q, hq, rfl⟩ := Option.map_eq_some_iff.mp hp
      obtain ⟨i, hi, rfl⟩ := Option.map_eq_some_iff.mp hq
      obtain ⟨hlt, rfl⟩ := List.getElem?_eq_some_iff.mp hi
      rw [List.getElem_range]
      have hnear := windowOffset_near h0.le (j - t.starts.length)
      have e : ((t.base + windowOffset ratio (j - t.starts.length) : ℕ) : ℚ) - ratio * j =
          windowOffset ratio (j - t.starts.length) - ratio * (j - t.starts.length : ℕ) := by
        push_cast [Nat.cast_sub hj]
        rw [hG.base_eq]
        ring
      rw [e]
      exact hnear

theorem onGrid_run (h0 : 0 < ratio) (hR : ratio ≤ filter.length - 1)
    (hint : ∃ n : ℕ, 0 < n ∧ (ratio = n ∨ ratio * n = 1)) {done cs : List Capture} (hcs : ∀ d ∈ cs, 1 ≤ d.numFrames)
    (hF : Follows filter ratio (signal done) t) (hS : Steady filter ratio t) (hG : OnGrid ratio t) :
    ∃ t', t.run cs = .ok t' ∧ Follows filter ratio (signal (done ++ cs)) t' ∧ OnGrid ratio t' := by
  have hstep : ∀ done t c, 1 ≤ c.numFrames →
      Follows filter ratio (signal done) t ∧ Steady filter ratio t ∧ OnGrid ratio t → ∃ t', t.capture c = .ok t' ∧
        Follows filter ratio (signal (done ++ [c])) t' ∧ Steady filter ratio t' ∧ OnGrid ratio t' := by
    intro done t c hc h
    obtain ⟨hF, hS, hG⟩ := h
    rw [signal_concat]
    exact onGrid_capture hF hG h0 hR hint c (hS.enough hc)
  obtain ⟨t', hrun, hF', -, hG'⟩ := Trace.run_inv hstep hcs ⟨hF, hS, hG⟩
  exact ⟨t', hrun, hF', hG'⟩

end Exact

theorem noDrift_of_int {r : SpeechRecorder} (hcap : r.bIsCapturing = true) (hbuf : r.buffer = [])
    (h0 : 0 < r.sampleRatio) (hR : r.sampleRatio ≤ r.filter.length - 1)
    (hint : ∃ n : ℕ, 0 < n ∧ (r.sampleRatio = n ∨ r.sampleRatio * n = 1)) : NoDrift r := by
  intro c cs hc hcs
  have hG₀ : OnGrid r.sampleRatio (Trace.begin r) :=
    ⟨by simp [Trace.base, Trace.begin], by simp [Trace.begin]⟩
  obtain ⟨t₁, hcap₁, hF₁, hS₁, hG₁⟩ := onGrid_capture (follows_begin hcap hbuf) hG₀ h0 hR hint c
    (r.enough_of_fills h0 r.buffer.length hc)
  rw [List.nil_append, ← signal_singleton] at hF₁
  obtain ⟨t, hrun, hF, hG⟩ := onGrid_run h0 hR hint hcs hF₁ hS₁ hG₁
  exact ⟨t, Trace.run_cons hcap₁ hrun, hF.delivered_eq, hG.near⟩

/-! ## Ratios with drift -/

/-- A capture of `n` silent frames. -/
def Capture.silence (n : ℕ) : Capture := Capture.mono (List.replicate n 0)

@[simp] theorem Capture.numFrames_silence (n : ℕ) : (Capture.silence n).numFrames = n := List.length_replicate

section Drifting

variable {r : SpeechRecorder} {hop : ℕ}

/-- The captures that make the resampler drift: each one fills the buffer to one sample more than the filter needs. -/
def driftRun (r : SpeechRecorder) (hop m : ℕ) : List Capture :=
  Capture.silence (r.filter.length + 1) :: List.replicate m (Capture.silence hop)

/-- The output count of every capture of `driftRun`. -/
theorem outputLength_drift {t : Trace} (hF : t.recorder.filter = r.filter) (hR : t.recorder.sampleRatio = r.sampleRatio) :
    t.recorder.outputLength (r.filter.length + 1) = ⌈(1 : ℚ) / r.sampleRatio⌉ := by
  rw [outputLength_eq, hF, hR]
  push_cast
  congr 2
  ring

/-- **The drifting run.**  With `k` outputs and a hop of `hop` in each capture, the first window of the `(m+1)`-th
capture is window number `m * k` and begins at `m * hop`. -/
theorem driftRun_starts (hcap : r.bIsCapturing = true) (hbuf : r.buffer = []) (h0 : 0 < r.sampleRatio)
    (hR : r.sampleRatio ≤ r.filter.length - 1) {k : ℕ} (hk : ⌈(1 : ℚ) / r.sampleRatio⌉ = k) (hk0 : 0 < k)
    (hhop : (hop : ℤ) = round (r.sampleRatio * k)) (m : ℕ) :
    ∃ t S, (Trace.begin r).run (driftRun r hop m) = .ok t ∧ Follows r.filter r.sampleRatio S t ∧
      Steady r.filter r.sampleRatio t ∧ t.recorder.buffer.length + hop = r.filter.length + 1 ∧
      t.starts.length = (m + 1) * k ∧ t.base = (m + 1) * hop ∧ t.starts[m * k]? = some (m * hop) := by
  -- one capture that fills the buffer to `Filter.Num() + 1` samples
  have step : ∀ (t : Trace) (S : List ℚ) (n : ℕ), Follows r.filter r.sampleRatio S t →
      t.recorder.buffer.length + n = r.filter.length + 1 →
      ∃ t' S', t.capture (Capture.silence n) = .ok t' ∧ Follows r.filter r.sampleRatio S' t' ∧
        Steady r.filter r.sampleRatio t' ∧ t'.recorder.buffer.length + hop = r.filter.length + 1 ∧
        t'.starts.length = t.starts.length + k ∧ t'.base = t.base + hop ∧
        t'.starts[t.starts.length]? = some t.base := by
    intro t S n hF hn
    have hnum : t.recorder.buffer.length + (Capture.silence n).numFrames = r.filter.length + 1 := by simpa using hn
    have hlen := outputLength_drift hF.filter_eq hF.ratio_eq
    obtain ⟨t', k', hk', hcap', hF', hS', hstarts, hbase⟩ :=
      steady_capture hF h0 hR (Capture.silence n) (by rw [hnum]; push_cast; linarith)
    rw [hnum, hlen, hk] at hk'
    have hkk : k = k' := by exact_mod_cast hk'
    subst hkk
    have hb := hF.buffer_le
    have hb' := hF'.buffer_le
    have hh := hF.heard_eq
    have hh' := hF'.heard_eq
    have hsil : (Capture.silence n).firstChannel.length = n := by simp
    refine ⟨t', _, hcap', hF', hS', ?_, by simp [hstarts], by omega, ?_⟩
    · rw [List.length_append, hsil] at hh' hb'
      unfold Trace.base at hbase
      omega
    · rw [hstarts, List.getElem?_append_right le_rfl, Nat.sub_self]
      cases k with
      | zero => omega
      | succ k =>
        simp only [List.range_succ_eq_map, List.map_cons, List.getElem?_cons_zero, Option.some.injEq,
          Nat.add_eq_left]
        unfold windowOffset
        rw [roundToInt_eq_round]
        simp
  induction m with
  | zero =>
    obtain ⟨t', S', h1, h2, h3, h4, h5, h6, h7⟩ := step (Trace.begin r) [] (r.filter.length + 1)
      (follows_begin hcap hbuf) (by simp [Trace.begin, hbuf])
    refine ⟨t', S', ?_, h2, h3, h4, ?_, ?_, ?_⟩
    · exact Trace.run_cons h1 rfl
    · rw [h5]; simp [Trace.begin]
    · rw [h6]; simp [Trace.begin, Trace.base]
    · simpa [Trace.begin, Trace.base] using h7
  | succ m ih =>
    obtain ⟨t, S, hrun, hF, -, hlen, hcount, hbase, -⟩ := ih
    obtain ⟨t', S', h1, h2, h3, h4, h5, h6, h7⟩ := step t S hop hF hlen
    refine ⟨t', S', ?_, h2, h3, h4, ?_, ?_, ?_⟩
    · have happ : driftRun r hop (m + 1) = driftRun r hop m ++ [Capture.silence hop] := by
        unfold driftRun
        rw [List.replicate_succ', List.cons_append]
      unfold Trace.run at hrun ⊢
      rw [happ, List.foldlM_append, hrun]
      show (t.capture (Capture.silence hop) >>= pure) = _
      rw [h1]
      rfl
    · rw [h5, hcount]; ring
    · rw [h6, hbase]; ring
    · rw [hcount, hbase] at h7
      exact h7

/-- **The error is not bounded** when the first hop is not a whole number of samples. -/
theorem drift_unbounded (hcap : r.bIsCapturing = true) (hbuf : r.buffer = []) (h0 : 0 < r.sampleRatio)
    (hR : r.sampleRatio ≤ r.filter.length - 1)
    (hint : ¬ ∃ n : ℕ, 0 < n ∧ (r.sampleRatio = n ∨ r.sampleRatio * n = 1)) (bound : ℚ) :
    ∃ (c : Capture) (cs : List Capture) (t : Trace) (k p : ℕ), r.filter.length ≤ c.numFrames ∧ (∀ d ∈ cs, 1 ≤ d.numFrames) ∧
      (Trace.begin r).run (c :: cs) = .ok t ∧ t.starts[k]? = some p ∧ bound < |(p : ℚ) - r.sampleRatio * k| := by
  have hceil : 0 < ⌈(1 : ℚ) / r.sampleRatio⌉ := Int.ceil_pos.mpr (by positivity)
  obtain ⟨k, hk⟩ := Int.eq_ofNat_of_zero_le hceil.le
  have hk0 : 0 < k := by omega
  have hhop1 : 1 ≤ round (r.sampleRatio * k) := by
    have h := round_hop_ge h0 1
    rw [Int.cast_one, hk] at h
    exact_mod_cast h
  obtain ⟨hop, hhop⟩ := Int.eq_ofNat_of_zero_le (show 0 ≤ round (r.sampleRatio * k) by omega)
  have hne : (hop : ℚ) - r.sampleRatio * k ≠ 0 := by
    intro he
    apply hop_one_not_int h0 hint (hop : ℤ)
    rw [hk]
    push_cast
    linarith
  obtain ⟨m, hm⟩ := exists_nat_gt (bound / |(hop : ℚ) - r.sampleRatio * k|)
  obtain ⟨t, S, hrun, -, -, -, -, -, hstart⟩ := driftRun_starts hcap hbuf h0 hR hk hk0 hhop.symm m
  refine ⟨_, _, t, m * k, m * hop, ?_, ?_, hrun, hstart, ?_⟩
  · rw [Capture.numFrames_silence]
    omega
  · intro d hd
    rw [List.eq_of_mem_replicate hd, Capture.numFrames_silence]
    omega
  · have e : ((m * hop : ℕ) : ℚ) - r.sampleRatio * (m * k : ℕ) = m * ((hop : ℚ) - r.sampleRatio * k) := by
      push_cast
      ring
    rw [e, abs_mul, Nat.abs_cast]
    rwa [div_lt_iff₀ (abs_pos.mpr hne)] at hm

end Drifting

/-- **When the resampler keeps its phase.**  In every run after `Start` the windows stay within one sample of the exact
grid if and only if the rate ratio is a whole number or the reciprocal of one. -/
theorem noDrift_iff {p : Platform} {r₀ r : SpeechRecorder} (hstart : r₀.start p = .ok r) (hbuf : r₀.buffer = [])
    (h0 : 0 < r.sampleRatio) (hR : r.sampleRatio ≤ r.filter.length - 1) :
    NoDrift r ↔ ∃ n : ℕ, 0 < n ∧ (r.sampleRatio = n ∨ r.sampleRatio * n = 1) := by
  obtain ⟨hcap, hbuf'⟩ := start_ok hstart
  rw [hbuf] at hbuf'
  constructor
  · intro h
    by_contra hint
    obtain ⟨c, cs, t, k, p, hc, hcs, hrun, hp, hlt⟩ := drift_unbounded hcap hbuf' h0 hR hint 1
    obtain ⟨t', hrun', -, hnear⟩ := h c cs hc hcs
    rw [hrun] at hrun'
    cases hrun'
    exact absurd (hnear k p hp) (not_le.mpr hlt)
  · exact noDrift_of_int hcap hbuf' h0 hR

/-- A 44.1 kHz device: six captures, the first of 24 frames and the others of 3, leave window number 5 at sample 15, while
`44100 / 16000 * 5` is `13.78`. -/
theorem drift_44100 : ¬ NoDrift (started 44100) := by
  intro h
  obtain ⟨t, hrun, -, hnear⟩ := h (Capture.silence 24) (List.replicate 5 (Capture.silence 3))
    (by rw [started_filter]; decide) (by decide)
  have hstarts : ((Trace.begin (started 44100)).run
      (Capture.silence 24 :: List.replicate 5 (Capture.silence 3))).toOption.map Trace.starts =
      some [0, 3, 6, 9, 12, 15] := by decide +kernel
  rw [hrun] at hstarts
  have ht : t.starts = [0, 3, 6, 9, 12, 15] := Option.some.inj hstarts
  have h5 := hnear 5 15 (by rw [ht]; rfl)
  rw [started_ratio] at h5
  norm_num [abs_le] at h5

/-- The 48 kHz device of the plugin's users keeps its phase. -/
theorem noDrift_48000 : NoDrift (started 48000) :=
  (noDrift_iff (start_device 48000) rfl (by rw [started_ratio]; norm_num)
    (by rw [started_ratio, started_filter]; norm_num)).mpr ⟨3, by norm_num, Or.inl (by rw [started_ratio]; norm_num)⟩

end SpeechlyPlugin.Recorder
