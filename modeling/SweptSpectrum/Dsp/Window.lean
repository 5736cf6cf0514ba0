import SweptSpectrum.Dsp.Single

/-!
The Hann window and the logarithmic power of an FFT bin, both in single precision.

The window of length `n ≥ 2` is `w(i) = ½ (1 - cos(2π i / (n - 1)))`, symmetric and zero at both
ends; shorter windows are all ones. The power of a bin `x` of an `n`-point FFT is
`20 log₁₀ (|x| / n)` decibels, with the magnitude floored at `10⁻¹²` so that an empty bin reads
-240 dB instead of minus infinity.
-/

namespace SweptSpectrum.Dsp

/-- The smallest magnitude a bin is given before taking its logarithm. -/
def magnitudeFloor : Float32 := 1e-12

/-- The symmetric Hann window of length `n`. -/
def hannWindow (n : Nat) : Array Float32 :=
  if n < 2 then Array.replicate n 1.0
  else
    let denom := natToFloat32 (n - 1)
    (Array.range n).map fun i => 0.5 * (1.0 - (2.0 * pi32 * natToFloat32 i / denom).cos)

/-- The logarithmic power of the bin `(re, im)` of an `n`-point FFT, dB. -/
def logPower (re im : Float32) (n : Nat) : Float32 :=
  let magnitude := max32 (hypot32 re im / natToFloat32 n) magnitudeFloor
  2.0 * 10.0 * magnitude.log10

theorem size_hannWindow (n : Nat) : (hannWindow n).size = n := by
  unfold hannWindow
  split <;> simp

end SweptSpectrum.Dsp
