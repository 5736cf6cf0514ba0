import SweptSpectrum.Decimal.Binary

/-!
IEEE 754 binary64 numbers with exact, computable arithmetic.

A `Double` is a bit pattern. Its meaning is the class `BinaryFormat.double.decode` reads from
the bits: not-a-number, an infinity, or a finite `(-1)^neg * mant * 2^exp`. Every operation
computes the exact result of its operands' values and rounds it once to the nearest binary64
number, a tie going to the even mantissa (`ofRatio`), as the standard prescribes for the
default rounding mode. Conversions to integers truncate towards zero and saturate at the ends
of the target range, a not-a-number giving zero.

Every finite binary64 value is a whole multiple of `2^-1074`; `BinaryValue.scaled` is that
multiple, and comparisons and sums are taken on it.
-/

namespace SweptSpectrum

open Decimal

namespace Decimal.BinaryValue

/-- The value as a whole multiple of `2^-1074`, the step of the binary64 subnormals. -/
def scaled (v : BinaryValue) : Int :=
  (if v.neg then -1 else 1) * ((v.mant * 2 ^ (v.exp + 1074).toNat : Nat) : Int)

/-- The value truncated towards zero. -/
def truncInt (v : BinaryValue) : Int :=
  (if v.neg then -1 else 1) * ((v.mant * 2 ^ v.exp.toNat / 2 ^ (-v.exp).toNat : Nat) : Int)

end Decimal.BinaryValue

/-- A binary64 floating-point number, by its bit pattern. -/
structure Double where
  bits : UInt64
  deriving Repr, Inhabited

namespace Double

/-- The exponent of the smallest subnormal, `-1074`. -/
def minExp : Int := BinaryFormat.double.minExp

/-- What the bit pattern denotes. -/
def classify (x : Double) : FloatClass := BinaryFormat.double.decode x.bits.toNat

/-- The number nearest to `(-1)^neg * num / den`, a tie going to the even mantissa; past the
largest finite magnitude it is infinite, and a value that rounds to zero keeps its sign.
`den` must be positive. -/
def ofRatio (neg : Bool) (num den : Nat) : Double :=
  ⟨(BinaryFormat.double.encode num den + if neg then 2 ^ 63 else 0).toUInt64⟩

/-- The number nearest to `(-1)^neg * mant * 2^exp`. -/
def ofDyadic (neg : Bool) (mant : Nat) (exp : Int) : Double :=
  ofRatio neg (mant * 2 ^ exp.toNat) (2 ^ (-exp).toNat)

/-- The not-a-number the arithmetic produces. -/
def nan : Double := ⟨0x7ff8000000000000⟩

/-- Positive or negative infinity. -/
def inf (neg : Bool) : Double := ⟨if neg then 0xfff0000000000000 else 0x7ff0000000000000⟩

/-- Positive or negative zero. -/
def zero (neg : Bool) : Double := ⟨if neg then 0x8000000000000000 else 0⟩

/-- The number nearest to a natural number. -/
def ofNat (n : Nat) : Double := ofRatio false n 1

/-- The number nearest to an integer; zero is positive. -/
def ofInt (i : Int) : Double := ofRatio (i < 0) i.natAbs 1

instance {n : Nat} : OfNat Double n := ⟨ofNat n⟩

/-- A decimal literal, rounded to the nearest number. -/
instance : OfScientific Double where
  ofScientific mantissa exponentSign decimalExponent :=
    if exponentSign then ofRatio false mantissa (10 ^ decimalExponent)
    else ofRatio false (mantissa * 10 ^ decimalExponent) 1

def isNaN (x : Double) : Bool :=
  match x.classify with
  | .nan => true
  | _ => false

def isFinite (x : Double) : Bool :=
  match x.classify with
  | .finite _ => true
  | _ => false

/-- Flips the sign bit. -/
def neg (x : Double) : Double := ⟨x.bits ^^^ 0x8000000000000000⟩

instance : Neg Double := ⟨neg⟩

/-- The sum of two numbers. An exact zero sum is negative only when both terms are. -/
def add (x y : Double) : Double :=
  match x.classify, y.classify with
  | .nan, _ | _, .nan => nan
  | .infinite a, .infinite b => if a = b then inf a else nan
  | .infinite a, .finite _ => inf a
  | .finite _, .infinite b => inf b
  | .finite u, .finite v =>
    let s := u.scaled + v.scaled
    if s = 0 then zero (u.neg && v.neg) else ofRatio (s < 0) s.natAbs (2 ^ 1074)

/-- The difference of two numbers. -/
def sub (x y : Double) : Double := add x (neg y)

/-- The product of two numbers. -/
def mul (x y : Double) : Double :=
  match x.classify, y.classify with
  | .nan, _ | _, .nan => nan
  | .infinite a, .infinite b => inf (a != b)
  | .infinite a, .finite v => if v.mant = 0 then nan else inf (a != v.neg)
  | .finite u, .infinite b => if u.mant = 0 then nan else inf (u.neg != b)
  | .finite u, .finite v => ofDyadic (u.neg != v.neg) (u.mant * v.mant) (u.exp + v.exp)

/-- The quotient of two numbers; a nonzero number over zero is infinite. -/
def div (x y : Double) : Double :=
  match x.classify, y.classify with
  | .nan, _ | _, .nan => nan
  | .infinite _, .infinite _ => nan
  | .infinite a, .finite v => inf (a != v.neg)
  | .finite u, .infinite b => zero (u.neg != b)
  | .finite u, .finite v =>
    if v.mant = 0 then (if u.mant = 0 then nan else inf (u.neg != v.neg))
    else ofRatio (u.neg != v.neg) (u.mant * 2 ^ (u.exp - v.exp).toNat)
      (v.mant * 2 ^ (v.exp - u.exp).toNat)

instance : Add Double := ⟨add⟩
instance : Sub Double := ⟨sub⟩
instance : Mul Double := ⟨mul⟩
instance : Div Double := ⟨div⟩

/-- Whether `x < y`; false when either is not a number. -/
def lt (x y : Double) : Bool :=
  match x.classify, y.classify with
  | .nan, _ | _, .nan => false
  | .infinite a, .infinite b => a && !b
  | .infinite a, .finite _ => a
  | .finite _, .infinite b => !b
  | .finite u, .finite v => decide (u.scaled < v.scaled)

/-- Whether `x ≤ y`; false when either is not a number. -/
def le (x y : Double) : Bool :=
  match x.classify, y.classify with
  | .nan, _ | _, .nan => false
  | .infinite a, .infinite b => a || !b
  | .infinite a, .finite _ => a
  | .finite _, .infinite b => !b
  | .finite u, .finite v => decide (u.scaled ≤ v.scaled)

/-- Numeric equality: a not-a-number equals nothing, and the two zeros are equal. -/
def eq (x y : Double) : Bool := le x y && le y x

instance : LT Double := ⟨fun x y => lt x y = true⟩
instance : LE Double := ⟨fun x y => le x y = true⟩
instance : BEq Double := ⟨eq⟩

instance (x y : Double) : Decidable (x < y) := inferInstanceAs (Decidable (lt x y = true))
instance (x y : Double) : Decidable (x ≤ y) := inferInstanceAs (Decidable (le x y = true))

/-- The larger of two numbers, where a not-a-number loses to any number. -/
def maxNum (a b : Double) : Double :=
  if a.isNaN then b else if b.isNaN then a else if a < b then b else a

/-- Applies an integer rounding of a magnitude, given as its whole part and whether the rest
is zero, at least half or more than nothing; numbers without a fraction are kept. A zero
result keeps the sign of the operand. -/
def roundWith (f : Bool → Nat → Nat → Nat → Nat) (x : Double) : Double :=
  match x.classify with
  | .finite v =>
    if 0 ≤ v.exp then x
    else
      let unit := 2 ^ (-v.exp).toNat
      ofRatio v.neg (f v.neg (v.mant / unit) (v.mant % unit) unit) 1
  | _ => x

/-- The largest integer not above the number. -/
def floor (x : Double) : Double :=
  roundWith (fun neg q r _ => if neg && r ≠ 0 then q + 1 else q) x

/-- The smallest integer not below the number. -/
def ceil (x : Double) : Double :=
  roundWith (fun neg q r _ => if !neg && r ≠ 0 then q + 1 else q) x

/-- The nearest integer, a half going away from zero. -/
def round (x : Double) : Double :=
  roundWith (fun _ q r unit => if 2 * r ≥ unit then q + 1 else q) x

/-- The number truncated towards zero and clamped to `[lo, hi]`; a not-a-number gives zero. -/
def toIntSat (x : Double) (lo hi : Int) : Int :=
  match x.classify with
  | .nan => 0
  | .infinite neg => if neg then lo else hi
  | .finite v => max lo (min hi v.truncInt)

/-- The 64-bit signed integer of a number, saturating. -/
def toInt64 (x : Double) : Int := x.toIntSat (-2 ^ 63) (2 ^ 63 - 1)

/-- The 16-bit signed integer of a number, saturating. -/
def toInt16 (x : Double) : Int := x.toIntSat (-2 ^ 15) (2 ^ 15 - 1)

/-- The 64-bit unsigned integer of a number, saturating; negative numbers give zero. -/
def toUInt64 (x : Double) : Nat := (x.toIntSat 0 (2 ^ 64 - 1)).toNat

/-- The machine float with the same bits. -/
def toFloat (x : Double) : Float := Float.ofBits x.bits

/-- The number with the bits of a machine float. -/
def ofFloat (f : Float) : Double := ⟨f.toBits⟩

/-- The single-precision float nearest to the number. -/
def toFloat32 (x : Double) : Float32 := x.toFloat.toFloat32

end Double

end SweptSpectrum
