import SweptSpectrum.Decimal.Binary

/-!
Decimal digit strings of exact binary values.

`Digits` is a decimal number `(-1)^neg * coeff * 10^exp`. Three ways to reach one from a
finite binary value are defined here, all in exact natural-number arithmetic:

* `BinaryValue.shortest`: the fewest significant digits that read back as the same value in
  its format (the interval of reals that round to it, ends included when the mantissa is
  even), the nearest such decimal when two qualify, and an even last digit on a tie;
* `BinaryValue.toPlaces`: the value rounded to a fixed number of places after the point;
* `BinaryValue.toSignificant`: the value rounded to a fixed number of significant digits.

The last two round half to even on the exact binary value.
-/

namespace SweptSpectrum.Decimal

/-- A decimal number `(-1)^neg * coeff * 10^exp`. -/
structure Digits where
  neg : Bool
  coeff : Nat
  exp : Int
  deriving Repr, DecidableEq

/-- `a * 10^k` compared with `x / den`. -/
def compareScaled (a : Nat) (k : Int) (x den : Nat) : Ordering :=
  if k ≥ 0 then compare (a * 10 ^ k.toNat * den) x
  else compare (a * den) (x * 10 ^ (-k).toNat)

/-- `10^p ≤ x / den`. -/
def pow10Le (p : Int) (x den : Nat) : Bool := compareScaled 1 p x den != .gt

/-- The exponent `p` with `10^p ≤ x / den < 10^(p+1)`, for positive `x` and `den`: an estimate
from bit lengths (log10 2 is just above 1233/4096) moved by at most two steps. -/
def floorLog10 (x den : Nat) : Int :=
  let est : Int := ((x.log2 : Int) - den.log2) * 1233 / 4096
  let up (p : Int) : Int := if pow10Le (p + 1) x den then p + 1 else p
  let down (p : Int) : Int := if pow10Le p x den then p else p - 1
  up (up (down (down est)))

/-- `⌊x / (den * 10^k)⌋`. -/
def floorScaled (x den : Nat) (k : Int) : Nat :=
  if k ≥ 0 then x / (den * 10 ^ k.toNat) else x * 10 ^ (-k).toNat / den

/-- `x / (den * 10^k)` rounded to the nearest integer, a tie going to the even one. -/
def nearestScaled (x den : Nat) (k : Int) : Nat :=
  if k ≥ 0 then BinaryFormat.divNearestEven x (den * 10 ^ k.toNat)
  else BinaryFormat.divNearestEven (x * 10 ^ (-k).toNat) den

/-- Drops trailing zero digits of the coefficient, raising the exponent to match. -/
def Digits.trim (d : Digits) : Digits :=
  if h : d.coeff ≠ 0 ∧ d.coeff % 10 = 0 then
    Digits.trim { d with coeff := d.coeff / 10, exp := d.exp + 1 }
  else d
termination_by d.coeff
decreasing_by exact Nat.div_lt_self (Nat.pos_of_ne_zero h.1) (by decide)

namespace BinaryValue

/-- The value and the two ends of its rounding interval as numerators over one power-of-two
denominator: `(value, low end, high end, denominator)`, all scaled by 4 so that the quarter
gap below a power of two stays whole. -/
def interval (v : BinaryValue) : Nat × Nat × Nat × Nat :=
  let lo := if v.lowerHalfGap then 4 * v.mant - 1 else 4 * v.mant - 2
  let e := v.exp - 2
  if e ≥ 0 then
    let s := 2 ^ e.toNat
    (4 * v.mant * s, lo * s, (4 * v.mant + 2) * s, 1)
  else (4 * v.mant, lo, 4 * v.mant + 2, 2 ^ (-e).toNat)

/-- Whether `d * 10^k` rounds to this value when read back. -/
def readsBack (v : BinaryValue) (d : Nat) (k : Int) : Bool :=
  let (_, lo, hi, den) := v.interval
  let incl := v.mant % 2 == 0
  let above := compareScaled d k lo den
  let below := compareScaled d k hi den
  (above == .gt || (incl && above == .eq)) && (below == .lt || (incl && below == .eq))

/-- The decimal with `n` significant digits that reads back and is nearest to the value, if
one exists: the two neighbours of the value on the grid of `10^(p-n+1)`. -/
def candidate (v : BinaryValue) (p : Int) (n : Nat) : Option (Nat × Int) :=
  let (x, _, _, den) := v.interval
  let k := p - n + 1
  let dl := floorScaled x den k
  let lowOk := v.readsBack dl k
  let highOk := v.readsBack (dl + 1) k
  match lowOk, highOk with
  | false, false => none
  | true, false => some (dl, k)
  | false, true => some (dl + 1, k)
  | true, true =>
    match compareScaled (2 * dl + 1) k (2 * x) den with
    | .gt => some (dl, k)
    | .lt => some (dl + 1, k)
    | .eq => if dl % 2 = 0 then some (dl, k) else some (dl + 1, k)

/-- The first digit count from `n` on, within `fuel` more, whose grid holds a decimal that
reads back; the exact value in `fuel + n` digits when none does. -/
def searchDigits (v : BinaryValue) (p : Int) : Nat → Nat → Nat × Int
  | 0, n =>
    let (x, _, _, den) := v.interval
    (nearestScaled x den (p - n + 1), p - n + 1)
  | fuel + 1, n =>
    match v.candidate p n with
    | some r => r
    | none => v.searchDigits p fuel (n + 1)

/-- The shortest decimal that reads back as this value in format `f`. A value of zero is
written with coefficient zero. -/
def shortest (f : BinaryFormat) (v : BinaryValue) : Digits :=
  if v.mant = 0 then ⟨v.neg, 0, 0⟩
  else
    let (x, _, _, den) := v.interval
    let (d, k) := v.searchDigits (floorLog10 x den) f.maxDigits 1
    Digits.trim ⟨v.neg, d, k⟩

/-- The value rounded to `places` digits after the decimal point, ties to even:
the coefficient counts units of `10^-places`. -/
def toPlaces (v : BinaryValue) (places : Nat) : Digits :=
  let scaled :=
    if v.exp ≥ 0 then v.mant * 2 ^ v.exp.toNat * 10 ^ places
    else BinaryFormat.divNearestEven (v.mant * 10 ^ places) (2 ^ (-v.exp).toNat)
  ⟨v.neg, scaled, -(places : Int)⟩

/-- The value rounded to `n + 1` significant digits, ties to even. The coefficient has
exactly `n + 1` digits unless the value is zero. -/
def toSignificant (v : BinaryValue) (n : Nat) : Digits :=
  if v.mant = 0 then ⟨v.neg, 0, 0⟩
  else
    let (x, _, _, den) := v.interval
    let p := floorLog10 x den
    let k := p - n
    let d := nearestScaled x den k
    if d = 10 ^ (n + 1) then ⟨v.neg, 10 ^ n, k + 1⟩ else ⟨v.neg, d, k⟩

end BinaryValue

theorem compareScaled_zero_exp (a x den : Nat) :
    compareScaled a 0 x den = compare (a * den) x := by
  simp [compareScaled]

end SweptSpectrum.Decimal
