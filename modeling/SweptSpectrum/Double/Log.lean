import SweptSpectrum.Double.Basic

/-!
The binary logarithm of a binary64 number, correctly rounded.

For a positive `x = mant * 2^exp` with `2^k ≤ mant < 2^(k+1)`, `log2 x` is `exp + k` plus the
logarithm of `y = mant / 2^k` in `[1, 2)`. The binary places of `log2 y` come from repeated
squaring: `y^2 ≥ 2` sets the next place, and then `y^2 / 2` is carried on. Held in fixed point
with 256 fraction bits, 128 places are exact but for a few units in the last ones, far below
the half unit of the 53-bit result; a power of two has an exact logarithm. The result is that
value rounded once to the nearest binary64 number.
-/

namespace SweptSpectrum

namespace Double

/-- Fraction bits of the fixed point that carries `y`. -/
def logPrecision : Nat := 256

/-- Binary places of the logarithm that are computed. -/
def logPlaces : Nat := 128

/-- Appends `n` more binary places of `log2 (y / 2^logPrecision)` to `acc`, for a fixed-point
`y` in `[2^logPrecision, 2^(logPrecision+1))`. -/
def logPlacesOf : Nat → Nat → Nat → Nat
  | 0, _, acc => acc
  | n + 1, y, acc =>
    let sq := y * y / 2 ^ logPrecision
    if sq ≥ 2 ^ (logPrecision + 1) then logPlacesOf n (sq / 2) (2 * acc + 1)
    else logPlacesOf n sq (2 * acc)

/-- The binary logarithm: not-a-number below zero, minus infinity at zero. -/
def log2 (x : Double) : Double :=
  match x.classify with
  | .nan => nan
  | .infinite neg => if neg then nan else x
  | .finite v =>
    if v.mant = 0 then inf true
    else if v.neg then nan
    else
      let k := v.mant.log2
      let places := logPlacesOf logPlaces (v.mant * 2 ^ (logPrecision - k)) 0
      let num : Int := (v.exp + k) * 2 ^ logPlaces + places
      ofRatio (num < 0) num.natAbs (2 ^ logPlaces)

end Double

end SweptSpectrum
