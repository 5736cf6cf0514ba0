import SweptSpectrum.Dsp.Single
import SweptSpectrum.Vrt.Error
import SweptSpectrum.Sweep.Plan

/-!
Measurements on a power spectrum given in dB per bin.

* the peak: the first bin of greatest power, and its frequency;
* the absolute power of a channel of bins, the single-precision sum of their linear powers
  `10^(dB/10)`, and the channel power, that sum in dB;
* the occupied bandwidth: a window grown symmetrically from the middle bin until it holds the
  requested share of the total power, in double precision; the linear power of a bin is a call
  to the math library's power function, and the rest is computed exactly and rounded as the
  machine does (`Double`).
-/

namespace SweptSpectrum.Dsp

open Vrt

/-- The first bin of greatest power: its frequency in `[fstart, fstop)` and its power. -/
def peakFind (spectrum : Array Float32) (fstart fstop : Float) : Except LinkError (Float × Float32) :=
  match spectrum.toList with
  | [] => .error (.formatViolation .emptySpectrum)
  | first :: _ =>
    let rbw := (fstop - fstart) / Sweep.asFloat spectrum.size
    let (bin, power) := spectrum.toList.zipIdx.foldl
      (fun (best : Nat × Float32) (cur : Float32 × Nat) =>
        if cur.1 > best.2 then (cur.2, cur.1) else best) (0, first)
    .ok (fstart + Sweep.asFloat bin * rbw, power)

/-- Checks that `[start, stop)` is a non-empty range of bins of the spectrum. -/
def checkRange (spectrum : Array Float32) (start stop : Nat) : Except LinkError Unit :=
  if start ≥ stop || stop > spectrum.size then
    .error (.formatViolation (.channelRange start stop spectrum.size))
  else .ok ()

/-- The total linear power of the bins `[start, stop)`. -/
def absolutePower (spectrum : Array Float32) (start stop : Nat) : Except LinkError Float32 := do
  checkRange spectrum start stop
  return ((spectrum.extract start stop).toList.map fun db => (10.0 : Float32) ^ (db / 10.0)).foldl
    (· + ·) (-0.0)

/-- The power in the channel `[start, stop)`, dB. -/
def channelPower (spectrum : Array Float32) (start stop : Nat) : Except LinkError Float32 := do
  let p ← absolutePower spectrum start stop
  return 10.0 * p.log10

/-- The linear power of a bin given in dB, `10^(dB/10)`, in double precision, by the math
library's power function. -/
def linearPower (db : Float32) : Double := Double.ofFloat ((10.0 : Float) ^ (db.toFloat / 10.0))

/-- The value of a single-precision float as a double. Widening is exact: the single's sign,
mantissa and exponent read as a double. -/
def widen (x : Float32) : Double :=
  match Decimal.ofFloat32 x with
  | .nan => Double.nan
  | .infinite neg => Double.inf neg
  | .finite v => Double.ofDyadic v.neg v.mant v.exp

/-- The total linear power of the bins, summed from the first, a bin's linear power given by
`linear`. -/
def totalPower (linear : Float32 → Double) (spectrum : Array Float32) : Double :=
  spectrum.toList.foldl (fun acc db => acc + linear db) 0

/-- The power the window must reach: `percentage` percent of the total. -/
def powerTarget (linear : Float32 → Double) (spectrum : Array Float32) (percentage : Float32) :
    Double :=
  totalPower linear spectrum * widen percentage / 100

/-- Grows the window `[center - half, center + half)` one bin on each side while it holds less
than `target`, adding the new left bin first while there is one; returns the final half width.
`fuel` is how many more bins fit on the right, which bounds the growth. -/
def growWindow (linear : Float32 → Double) (spectrum : Array Float32) (center : Nat)
    (target : Double) : Nat → Nat → Double → Nat
  | 0, half, _ => half
  | fuel + 1, half, power =>
    if power < target then
      let half := half + 1
      let withLeft :=
        if half ≤ center then power + linear (spectrum.getD (center - half) 0.0) else power
      growWindow linear spectrum center target fuel half
        (withLeft + linear (spectrum.getD (center + half - 1) 0.0))
    else half

/-- The bandwidth holding `percentage` percent of the total power, for bins `rbw` wide, a bin's
linear power given by `linear`. The percentage must lie in `(0, 100]`. -/
def occupiedBandwidthWith (linear : Float32 → Double) (spectrum : Array Float32) (rbw : Double)
    (percentage : Float32) : Except LinkError Double := do
  if !(0 < widen percentage && widen percentage ≤ 100) then
    throw (.formatViolation (.occupiedPercentage percentage))
  checkRange spectrum 0 spectrum.size
  let len := spectrum.size
  let center := len / 2
  let half := growWindow linear spectrum center (powerTarget linear spectrum percentage)
    (len - center) 0 0
  return Double.ofNat (min (2 * half) len) * rbw

/-- The bandwidth holding `percentage` percent of the total power, Hz, for bins `rbw` wide. -/
def occupiedBandwidth (spectrum : Array Float32) (rbw : Float) (percentage : Float32) :
    Except LinkError Float :=
  (occupiedBandwidthWith linearPower spectrum (Double.ofFloat rbw) percentage).map Double.toFloat

end SweptSpectrum.Dsp
