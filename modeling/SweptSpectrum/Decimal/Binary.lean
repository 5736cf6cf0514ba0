import SweptSpectrum.Arith

/-!
Binary floating-point encodings read as exact numbers.

A finite IEEE 754 encoding denotes `(-1)^neg * mant * 2^exp` with a natural mantissa; the
decimal printers and readers of this library work on that exact value and never on the
hardware's own rounding. `BinaryFormat.decode` splits a bit pattern into that form, and
`BinaryFormat.encode` builds the nearest encoding of an exact non-negative rational.
-/

namespace SweptSpectrum.Decimal

/-- The shape of an IEEE 754 binary interchange format: stored fraction bits and exponent
bits. -/
structure BinaryFormat where
  fracBits : Nat
  expBits : Nat
  deriving Repr, DecidableEq

namespace BinaryFormat

/-- binary64, the format of `Float`. -/
def double : BinaryFormat := ⟨52, 11⟩

/-- binary32, the format of `Float32`. -/
def single : BinaryFormat := ⟨23, 8⟩

/-- The exponent bias, `2^(expBits-1) - 1`. -/
def bias (f : BinaryFormat) : Nat := 2 ^ (f.expBits - 1) - 1

/-- The largest biased exponent, reserved for infinities and NaNs. -/
def expMax (f : BinaryFormat) : Nat := 2 ^ f.expBits - 1

/-- The exponent of one unit in the last place of the subnormals, `1 - bias - fracBits`. -/
def minExp (f : BinaryFormat) : Int := 1 - (f.bias : Int) - f.fracBits

/-- The most significant decimal digits any value of the format needs to read back:
17 for binary64, 9 for binary32. -/
def maxDigits (f : BinaryFormat) : Nat := if f.fracBits ≤ 23 then 9 else 17

end BinaryFormat

/-- The exact value of a finite encoding: `(-1)^neg * mant * 2^exp`. `lowerHalfGap` marks a
mantissa at a power of two above the smallest normal exponent, whose lower neighbour is half
as far away as the upper one. -/
structure BinaryValue where
  neg : Bool
  mant : Nat
  exp : Int
  lowerHalfGap : Bool
  deriving Repr, DecidableEq

/-- What a bit pattern denotes. -/
inductive FloatClass where
  | nan
  | infinite (neg : Bool)
  | finite (v : BinaryValue)
  deriving Repr, DecidableEq

namespace BinaryFormat

/-- Splits a bit pattern into sign, exponent field and fraction field and reads the value. -/
def decode (f : BinaryFormat) (bits : Nat) : FloatClass :=
  let frac := bits % 2 ^ f.fracBits
  let field := bits / 2 ^ f.fracBits % 2 ^ f.expBits
  let neg := bits / 2 ^ (f.fracBits + f.expBits) % 2 == 1
  if field = f.expMax then
    if frac = 0 then .infinite neg else .nan
  else if field = 0 then
    .finite ⟨neg, frac, f.minExp, false⟩
  else
    .finite ⟨neg, frac + 2 ^ f.fracBits, (field : Int) + f.minExp - 1, frac = 0 ∧ field > 1⟩

/-- The bit pattern of a positive value `mant * 2^exp` with `mant < 2^(fracBits+1)` already
rounded to the format; too large a value becomes infinity. -/
def pack (f : BinaryFormat) (mant : Nat) (exp : Int) : Nat :=
  if mant < 2 ^ f.fracBits then mant
  else
    let field := exp - f.minExp + 1
    if field ≥ f.expMax then f.expMax * 2 ^ f.fracBits
    else field.toNat * 2 ^ f.fracBits + (mant - 2 ^ f.fracBits)

/-- Division rounded to the nearest integer, a tie going to the even one. -/
def divNearestEven (a b : Nat) : Nat :=
  let q := a / b
  let r := a % b
  if 2 * r > b then q + 1
  else if 2 * r < b then q
  else if q % 2 = 0 then q else q + 1

/-- The exponent `e` that puts `num / den` in `[2^p, 2^(p+1))` after division by `2^e`, searched
from an estimate by bit lengths. -/
def scaleExponent (num den p : Nat) : Int :=
  let est : Int := (num.log2 : Int) - den.log2 - p
  let fits (e : Int) : Bool :=
    if e ≥ 0 then
      2 ^ p * den * 2 ^ e.toNat ≤ num ∧ num < 2 ^ (p + 1) * den * 2 ^ e.toNat
    else
      2 ^ p * den ≤ num * 2 ^ (-e).toNat ∧ num * 2 ^ (-e).toNat < 2 ^ (p + 1) * den
  if fits (est - 1) then est - 1 else if fits est then est else est + 1

/-- The encoding nearest to the non-negative rational `num / den`, a tie going to the even
mantissa; values past the largest finite one become infinity, and below the smallest
subnormal they round to zero or to it. `den` must be positive. -/
def encode (f : BinaryFormat) (num den : Nat) : Nat :=
  if num = 0 then 0
  else
    let e := max (scaleExponent num den f.fracBits) f.minExp
    let q :=
      if e ≥ 0 then divNearestEven num (den * 2 ^ e.toNat)
      else divNearestEven (num * 2 ^ (-e).toNat) den
    if q = 2 ^ (f.fracBits + 1) then f.pack (2 ^ f.fracBits) (e + 1) else f.pack q e

end BinaryFormat

/-- The exact value of a `Float`. -/
def ofFloat (x : Float) : FloatClass := BinaryFormat.double.decode x.toBits.toNat

/-- The exact value of a `Float32`. -/
def ofFloat32 (x : Float32) : FloatClass := BinaryFormat.single.decode x.toBits.toNat

/-- The `Float` nearest to `num / den` (non-negative), ties to even, with the given sign. -/
def floatOfRatio (neg : Bool) (num den : Nat) : Float :=
  let bits := BinaryFormat.double.encode num den + if neg then 2 ^ 63 else 0
  Float.ofBits bits.toUInt64

theorem divNearestEven_exact (a b : Nat) (hb : 0 < b) :
    BinaryFormat.divNearestEven (a * b) b = a := by
  simp [BinaryFormat.divNearestEven, Nat.mul_div_cancel _ hb, Nat.mul_mod_left]
  omega

end SweptSpectrum.Decimal
