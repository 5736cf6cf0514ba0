import SweptSpectrum.Dsp.Window
import SweptSpectrum.Vrt.Samples

/-!
The spectrum of one packet of IF samples.

Samples are scaled to full scale of their encoding and weighted by a Hann window, both in
single precision; real encodings get a zero imaginary part. The discrete Fourier transform is
a parameter of the analyzer (`Fft`), of which the analyzer needs only that it keeps the number
of bins. The power of a bin is computed from its single-precision components.

An analyzer keeps a working buffer of its size from packet to packet. Loading writes the
weighted samples over the buffer from its start, through a zip: only the sample count is
checked, so an I/Q packet whose Q part is shorter than its I part leaves the rest of the buffer
as it was (`loadInto`). Processing loads a packet into the analyzer's own buffer and transforms
the buffer in place; the bin powers are read from it.
-/

namespace SweptSpectrum.Dsp

open Vrt

/-- A single-precision complex bin. -/
structure Bin where
  re : Float32
  im : Float32
  deriving Repr, Inhabited

/-- The bin both parts of which are zero. -/
def Bin.zero : Bin := ⟨0.0, 0.0⟩

/-- A forward discrete Fourier transform of single-precision bins, of whatever length it is
given. It runs in place, so it keeps the number of bins. -/
structure Fft where
  transform : Array Bin → Array Bin
  size_transform : ∀ xs, (transform xs).size = xs.size

/-- `xs` with its leading entries replaced by those of `ws`, as far as both reach: what a loop
that writes `ws` through a zip with `xs` leaves in `xs`. -/
def overwritePrefix {α : Type} (ws xs : List α) : List α :=
  (ws ++ xs.drop ws.length).take xs.length

@[simp] theorem length_overwritePrefix {α : Type} (ws xs : List α) :
    (overwritePrefix ws xs).length = xs.length := by
  simp only [overwritePrefix, List.length_take, List.length_append, List.length_drop]
  omega

/-- A fixed-size spectrum analyzer: the FFT size, the transform, the window, and the working
buffer of that size, which holds the last packet loaded or its spectrum. -/
structure Analyzer where
  size : Nat
  fft : Fft
  window : Array Float32
  buffer : Array Bin
  size_buffer : buffer.size = size

namespace Analyzer

/-- An analyzer of `size` points, its buffer zero; an FFT needs at least two. -/
def new (fft : Fft) (size : Nat) : Except LinkError Analyzer :=
  if size < 2 then .error (.formatViolation (.fftTooSmall size))
  else .ok ⟨size, fft, hannWindow size, Array.replicate size Bin.zero, Array.size_replicate⟩

/-- The samples windowed and scaled to full scale, in order: sample `k` times window value `k`
over full scale. An I/Q sample is formed while both parts last. -/
def weighted (a : Analyzer) (s : Samples) : List Bin :=
  let scale : Float32 := 1.0 / s.sampleType.fullScale
  let gain := fun idx => a.window.getD idx 0.0 * scale
  match s with
  | .iq i q => ((i.zip q).zipIdx).map fun ((si, sq), idx) =>
      ⟨intToFloat32 si.toInt * gain idx, intToFloat32 sq.toInt * gain idx⟩
  | .real16 v => v.zipIdx.map fun (x, idx) => ⟨intToFloat32 x.toInt * gain idx, 0.0⟩
  | .real32 v => v.zipIdx.map fun (x, idx) => ⟨intToFloat32 x.toInt * gain idx, 0.0⟩

/-- Loads samples into a working buffer. A count other than the analyzer's size is refused;
otherwise the weighted samples overwrite the buffer from its start, as far as both reach. -/
def loadInto (a : Analyzer) (buffer : Array Bin) (s : Samples) : Except LinkError (Array Bin) :=
  if s.length ≠ a.size then .error (.formatViolation (.sampleCount a.size s.length))
  else .ok (overwritePrefix (a.weighted s) buffer.toList).toArray

/-- Loading keeps the length of the buffer. -/
theorem size_of_loadInto {a : Analyzer} {buffer out : Array Bin} {s : Samples}
    (h : a.loadInto buffer s = .ok out) : out.size = buffer.size := by
  unfold loadInto at h
  split at h
  · cases h
  · cases h
    simp

/-- Loads samples into the analyzer's own buffer. -/
def load (a : Analyzer) (s : Samples) : Except LinkError Analyzer :=
  match h : a.loadInto a.buffer s with
  | .ok buffer => .ok { a with buffer, size_buffer := (size_of_loadInto h).trans a.size_buffer }
  | .error e => .error e

/-- Transforms the working buffer in place. -/
def transform (a : Analyzer) : Analyzer :=
  { a with buffer := a.fft.transform a.buffer,
           size_buffer := (a.fft.size_transform a.buffer).trans a.size_buffer }

/-- Reverses the spectrum in the buffer, for a signal path that inverts it. -/
def reverse (a : Analyzer) : Analyzer :=
  { a with buffer := a.buffer.reverse, size_buffer := (Array.size_reverse ..).trans a.size_buffer }

/-- Windows, normalizes and transforms a packet of samples in the working buffer. -/
def process (a : Analyzer) (s : Samples) : Except LinkError Analyzer :=
  (a.load s).map transform

/-- The power of bin `b` of the spectrum in the buffer, dB. -/
def binPower (a : Analyzer) (b : Nat) : Float32 :=
  let x := a.buffer.getD b default
  logPower x.re x.im a.size

end Analyzer

end SweptSpectrum.Dsp
