/-!
Single-precision helpers shared by the signal-processing modules.

Integer to float conversions round to nearest, ties to even, as machine conversions do. The
maximum of two floats prefers a number to a NaN.
-/

namespace SweptSpectrum.Dsp

/-- π rounded to single precision. -/
def pi32 : Float32 := Float32.ofBits 0x40490fdb

/-- π in double precision. -/
def pi64 : Float := Float.ofBits 0x400921fb54442d18

/-- A count as a single-precision float. -/
def natToFloat32 (n : Nat) : Float32 := n.toUInt64.toFloat32

/-- An integer as a single-precision float; the magnitude is rounded, then the sign applied. -/
def intToFloat32 (i : Int) : Float32 :=
  if i < 0 then -(natToFloat32 i.natAbs) else natToFloat32 i.toNat

/-- The larger of two single-precision floats, where a NaN loses to any number. -/
def max32 (a b : Float32) : Float32 :=
  if a.isNaN then b else if b.isNaN then a else if a < b then b else a

/-- The length of the vector `(x, y)`, computed in double precision and rounded once to
single precision; an infinite component makes it infinite even beside a NaN. -/
def hypot32 (x y : Float32) : Float32 :=
  if x.isInf || y.isInf then Float32.ofBits 0x7f800000
  else
    let a := x.toFloat
    let b := y.toFloat
    (Float.sqrt (a * a + b * b)).toFloat32

theorem max32_nan_left (a b : Float32) (h : a.isNaN = true) : max32 a b = b := by
  unfold max32
  rw [if_pos h]

end SweptSpectrum.Dsp
