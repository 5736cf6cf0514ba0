import Mathlib.Data.List.Basic
import SweptSpectrum.Dsp.Analyzer
import SweptSpectrum.Backend.Fourier

/-!
# Loading samples into an analyzer's working buffer

Loading a packet writes its windowed, normalized samples over the working buffer, from the start
and through a zip: entry `k` becomes sample `k` times window value `k` over full scale, for as
many entries as the packet has samples, an I/Q sample needing both its parts. Only the sample
count is checked, and for I/Q packets it is the count of the I part.

The main statement, `loadInto_entries`: loading a packet of the analyzer's size into a buffer of
that size succeeds, writes the weighted samples as far as they reach and keeps the rest of the
buffer. When the samples fill the buffer, as every real packet and every I/Q packet with a Q
part at least as long as its I part does, nothing of the earlier buffer remains: the buffer is
that of a new analyzer, and processing the packet gives the same analyzer, spectrum and bin
powers whatever the working buffer held before. An I/Q packet with a shorter Q part is loaded
all the same, and past its Q part the buffer still holds the previous packet's values.
-/

namespace SweptSpectrum.Vrt

/-- How many entries loading the samples writes: every sample, an I/Q sample while both its
parts last. -/
def Samples.written : Samples → Nat
  | .iq i q => min i.length q.length
  | .real16 v => v.length
  | .real32 v => v.length

/-- Real samples, and I/Q samples whose Q part reaches as far as their I part, are written
whole. -/
theorem Samples.written_eq_length {s : Samples} :
    s.written = s.length ↔ ∀ i q, s = .iq i q → i.length ≤ q.length := by
  cases s with
  | iq i q =>
    simp only [written, length, Samples.iq.injEq, and_imp]
    constructor
    · rintro h _ _ rfl rfl
      omega
    · intro h
      have := h i q rfl rfl
      omega
  | real16 v => simp [written, length]
  | real32 v => simp [written, length]

end SweptSpectrum.Vrt

namespace SweptSpectrum.Dsp

open Vrt

/-! ## Overwriting a prefix -/

section Overwrite

variable {α : Type} (ws xs : List α)

theorem get_overwritePrefix {k : ℕ} (hk : k < xs.length) :
    (overwritePrefix ws xs).get ⟨k, by simpa using hk⟩ =
      if h : k < ws.length then ws[k] else xs[k] := by
  simp only [List.get_eq_getElem, overwritePrefix, List.getElem_take]
  split
  · rename_i h
    exact List.getElem_append_left h
  · rename_i h
    rw [List.getElem_append_right (by omega), List.getElem_drop]
    congr 1
    omega

/-- Values that reach past the end replace all of it. -/
theorem overwritePrefix_of_le (h : xs.length ≤ ws.length) :
    overwritePrefix ws xs = ws.take xs.length := by
  simp [overwritePrefix, List.take_append_of_le_length h]

end Overwrite

/-! ## The weighted samples -/

/-- Entry `k` as loading writes it: sample `k` times window value `k` over full scale; I and Q
both so, a real sample with a zero imaginary part. -/
def Analyzer.weightedAt (a : Analyzer) : Samples → ℕ → Bin
  | .iq i q, k =>
    ⟨intToFloat32 (i.getD k 0).toInt * (a.window.getD k 0.0 * (1.0 / SampleType.i16q16.fullScale)),
     intToFloat32 (q.getD k 0).toInt * (a.window.getD k 0.0 * (1.0 / SampleType.i16q16.fullScale))⟩
  | .real16 v, k =>
    ⟨intToFloat32 (v.getD k 0).toInt * (a.window.getD k 0.0 * (1.0 / SampleType.i16.fullScale)), 0.0⟩
  | .real32 v, k =>
    ⟨intToFloat32 (v.getD k 0).toInt * (a.window.getD k 0.0 * (1.0 / SampleType.i32.fullScale)), 0.0⟩

theorem length_weighted (a : Analyzer) (s : Samples) : (a.weighted s).length = s.written := by
  cases s <;> simp [Analyzer.weighted, Samples.written]

theorem getElem_weighted (a : Analyzer) (s : Samples) {k : ℕ} (hk : k < (a.weighted s).length) :
    (a.weighted s)[k] = a.weightedAt s k := by
  have hw : k < s.written := length_weighted a s ▸ hk
  cases s <;> simp only [Samples.written, Nat.lt_min] at hw <;>
    simp [Analyzer.weighted, Analyzer.weightedAt, Samples.sampleType, hw]

/-! ## Loading -/

namespace Analyzer

/-- A packet of the analyzer's size is loaded: the weighted samples over the buffer. -/
theorem loadInto_of_length (a : Analyzer) (b : Array Bin) {s : Samples} (hs : s.length = a.size) :
    a.loadInto b s = .ok (overwritePrefix (a.weighted s) b.toList).toArray := by
  simp [loadInto, hs]

/-- Samples that reach every entry of the buffer leave nothing of what it held. -/
theorem loadInto_of_written (a : Analyzer) {b : Array Bin} {s : Samples} (hs : s.length = a.size)
    (hb : b.size = a.size) (hw : s.written = a.size) :
    a.loadInto b s = .ok (a.weighted s).toArray := by
  have hlen : (a.weighted s).length = b.toList.length := by
    rw [length_weighted, hw, Array.length_toList, hb]
  rw [loadInto_of_length a b hs, overwritePrefix_of_le _ _ (Nat.le_of_eq hlen.symm), ← hlen,
    List.take_length]

/-- `a'` is `a` with another working buffer: the same size, transform and window. -/
structure Rebuffered (a a' : Analyzer) : Prop where
  size : a'.size = a.size
  fft : a'.fft = a.fft
  window : a'.window = a.window

@[simp] theorem Rebuffered.refl (a : Analyzer) : a.Rebuffered a := ⟨rfl, rfl, rfl⟩

theorem Rebuffered.symm {a b : Analyzer} (h : a.Rebuffered b) : b.Rebuffered a :=
  ⟨h.size.symm, h.fft.symm, h.window.symm⟩

theorem Rebuffered.trans {a b c : Analyzer} (h₁ : a.Rebuffered b) (h₂ : b.Rebuffered c) :
    a.Rebuffered c :=
  ⟨h₂.size.trans h₁.size, h₂.fft.trans h₁.fft, h₂.window.trans h₁.window⟩

theorem rebuffered_transform (a : Analyzer) : a.Rebuffered a.transform := ⟨rfl, rfl, rfl⟩

theorem rebuffered_reverse (a : Analyzer) : a.Rebuffered a.reverse := ⟨rfl, rfl, rfl⟩

/-- An analyzer is its setup and its buffer. -/
theorem Rebuffered.eq {a a' : Analyzer} (h : a.Rebuffered a') (hb : a'.buffer = a.buffer) :
    a' = a := by
  obtain ⟨size, fft, window, buffer, _⟩ := a
  obtain ⟨size', fft', window', buffer', _⟩ := a'
  obtain ⟨hsize, hfft, hwindow⟩ := h
  dsimp only at hsize hfft hwindow hb
  subst hsize hfft hwindow hb
  rfl

/-- Loading into the analyzer's own buffer replaces the buffer by what `loadInto` writes and
keeps the rest of the analyzer. -/
theorem load_of_loadInto {a : Analyzer} {s : Samples} {out : Array Bin}
    (h : a.loadInto a.buffer s = .ok out) :
    ∃ a', a.load s = .ok a' ∧ a.Rebuffered a' ∧ a'.buffer = out := by
  unfold load
  split
  · rename_i buffer hbuf
    rw [h] at hbuf
    cases hbuf
    exact ⟨_, rfl, ⟨rfl, rfl, rfl⟩, rfl⟩
  · rename_i e he
    rw [h] at he
    cases he

/-- Loading keeps the analyzer's setup. -/
theorem rebuffered_of_load {a a' : Analyzer} {s : Samples} (h : a.load s = .ok a') :
    a.Rebuffered a' := by
  unfold load at h
  split at h
  · cases h
    exact ⟨rfl, rfl, rfl⟩
  · cases h

/-- Processing keeps the analyzer's setup. -/
theorem rebuffered_of_process {a a' : Analyzer} {s : Samples} (h : a.process s = .ok a') :
    a.Rebuffered a' := by
  unfold process at h
  cases hl : a.load s with
  | error e =>
    rw [hl] at h
    cases h
  | ok l =>
    rw [hl] at h
    cases h
    exact (rebuffered_of_load hl).trans (rebuffered_transform l)

/-- A packet of the analyzer's size is processed, and the analyzer keeps its setup. -/
theorem process_of_length (a : Analyzer) {s : Samples} (hs : s.length = a.size) :
    ∃ a', a.process s = .ok a' ∧ a.Rebuffered a' := by
  obtain ⟨l, hl, hre, -⟩ := load_of_loadInto (loadInto_of_length a a.buffer hs)
  exact ⟨l.transform, by rw [process, hl]; rfl, hre.trans (rebuffered_transform l)⟩

/-- Two analyzers that differ at most in their working buffers, given samples that fill the
buffer, process them alike. -/
theorem process_of_written {a a' : Analyzer} {s : Samples} (hs : s.length = a.size)
    (hw : s.written = a.size) (h : a.Rebuffered a') : a'.process s = a.process s := by
  have hweighted : a'.weighted s = a.weighted s := by
    unfold weighted
    rw [h.window]
  obtain ⟨l, hl, hre, hlb⟩ := load_of_loadInto (loadInto_of_written a hs a.size_buffer hw)
  obtain ⟨l', hl', hre', hlb'⟩ :=
    load_of_loadInto (loadInto_of_written a' (h.size ▸ hs) a'.size_buffer (h.size ▸ hw))
  -- both load the same weighted samples over the whole buffer
  have hsame : l' = l := (hre.symm.trans (h.trans hre')).eq (by rw [hlb, hlb', hweighted])
  rw [process, process, hl, hl', hsame]

/-- Loading a packet of the analyzer's size into a buffer of that size: entry `k` is the
weighted sample `k` while the samples last, and what the buffer held past them. Samples that
fill the buffer, real ones or I/Q ones with a Q part as long as the I part, leave nothing of it:
the buffer is that of a new analyzer, all zero, and processing them gives the same analyzer,
so the same spectrum and bin powers, whatever the working buffer held before. -/
theorem loadInto_entries (a : Analyzer) {s : Samples} (hs : s.length = a.size) (b : Array Bin)
    (hb : b.size = a.size) :
    (∃ out : Array Bin, a.loadInto b s = .ok out ∧ ∃ _ : out.size = a.size,
      ∀ k (hk : k < a.size), out[k] = if k < s.written then a.weightedAt s k else b[k]) ∧
    ((∀ i q, s = .iq i q → i.length ≤ q.length) →
      a.loadInto b s = a.loadInto (Array.replicate a.size Bin.zero) s ∧
      ∀ a' : Analyzer, a'.size = a.size → a'.fft = a.fft → a'.window = a.window →
        a'.process s = a.process s) := by
  refine ⟨⟨_, loadInto_of_length a b hs, by simp [hb], fun k hk => ?entry⟩, fun hfill => ?fill⟩
  case entry =>
    have hget := get_overwritePrefix (a.weighted s) b.toList (by simpa [hb] using hk)
    simp only [List.get_eq_getElem] at hget
    simp only [List.getElem_toArray, hget]
    by_cases hkw : k < s.written
    · rw [dif_pos (by rwa [length_weighted]), if_pos hkw, getElem_weighted]
    · rw [dif_neg (by rwa [length_weighted]), if_neg hkw, Array.getElem_toList]
  case fill =>
    have hw : s.written = a.size := hs ▸ Samples.written_eq_length.mpr hfill
    refine ⟨?_, fun a' hsize hfft hwindow => process_of_written hs hw ⟨hsize, hfft, hwindow⟩⟩
    rw [loadInto_of_written a hs hb hw, loadInto_of_written a hs Array.size_replicate hw]

end Analyzer

/-- A four-point analyzer whose buffer still holds an earlier packet, every bin `1 + 0i`, given
four I samples and no Q part: the packet passes the size check, and the buffer keeps what it
held, nothing of the I samples loaded. -/
theorem loadInto_keeps_buffer_past_q :
    ∃ a' : Analyzer, (⟨4, Backend.fourierFft, hannWindow 4, Array.replicate 4 ⟨1.0, 0.0⟩,
        Array.size_replicate⟩ : Analyzer).load (.iq [0, 8192, 0, 0] []) = .ok a' ∧
      a'.buffer = Array.replicate 4 ⟨1.0, 0.0⟩ := by
  obtain ⟨⟨out, hload, hsize, hentry⟩, -⟩ :=
    Analyzer.loadInto_entries ⟨4, Backend.fourierFft, hannWindow 4, Array.replicate 4 ⟨1.0, 0.0⟩,
      Array.size_replicate⟩ (s := .iq [0, 8192, 0, 0] []) rfl (Array.replicate 4 ⟨1.0, 0.0⟩) rfl
  obtain ⟨a', hload', -, hbuf⟩ := Analyzer.load_of_loadInto hload
  refine ⟨a', hload', hbuf.trans (Array.ext (by simpa using hsize) fun k hk _ => ?_)⟩
  rw [hentry k (by simpa [hsize] using hk)]
  simp [Samples.written]

end SweptSpectrum.Dsp
