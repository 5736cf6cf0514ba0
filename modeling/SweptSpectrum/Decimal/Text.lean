import SweptSpectrum.Decimal.Digits
import SweptSpectrum.Double.Basic

/-!
Decimal text of binary floating-point values.

Four notations, each the same for both formats:

* `display`: the shortest decimal that reads back, written positionally with no exponent and
  no trailing point (`100000000000000000000`, `0.0000001`, `2.5`, `-0`);
* `fixed n`: the exact value rounded to `n` places, half to even (`0.25` to one place is `0.2`);
* `scientific n`: the exact value rounded to `n + 1` significant digits as `d.ddddeX`, with an
  unsigned exponent unless it is negative (`1.2346e3`, `5.0000e-1`, `0.0000e0`);
* `number`: the shortest decimal as the text of a number of a data file, always with a point or
  an exponent so that it reads as a fraction (`2400000000.0`, `1e-12`).

A negative sign is written whenever the sign bit is set, also for zero; not-a-number and the
infinities are written `NaN`, `inf` and `-inf`.
-/

namespace SweptSpectrum.Decimal

/-- `n` zero digits. -/
def zeros (n : Nat) : String := String.ofList (List.replicate n '0')

/-- The digits of a natural number, at least `width` of them, padded on the left with zeros. -/
def padDigits (n width : Nat) : String :=
  let s := toString n
  zeros (width - s.length) ++ s

/-- `-` for a negative value, nothing otherwise. -/
def signText (neg : Bool) : String := if neg then "-" else ""

/-- The coefficient's digits with the decimal point `places` digits from the right. -/
def pointed (coeff places : Nat) : String :=
  let s := padDigits coeff (places + 1)
  if places = 0 then s
  else String.ofList (s.toList.take (s.length - places)) ++ "." ++
    String.ofList (s.toList.drop (s.length - places))

/-- Positional text of a decimal: no exponent, no trailing point. -/
def Digits.positional (d : Digits) : String :=
  if d.exp ≥ 0 then signText d.neg ++ toString d.coeff ++ zeros d.exp.toNat
  else signText d.neg ++ pointed d.coeff (-d.exp).toNat

/-- Text of a decimal as a number of a data file: positional when its leading digit stands
between the fifth place after the point and the seventeenth before it, with `.0` added to a
whole number; otherwise with an exponent, `1e-12`, `1.5e17`. -/
def Digits.number (d : Digits) : String :=
  let len := (toString d.coeff).length
  let lead := d.exp + len - 1
  if -5 ≤ lead ∧ lead < 17 then
    if d.exp ≥ 0 then d.positional ++ ".0" else d.positional
  else
    let body := toString d.coeff
    let mantissa :=
      if len = 1 then body
      else String.ofList (body.toList.take 1) ++ "." ++ String.ofList (body.toList.drop 1)
    signText d.neg ++ mantissa ++ "e" ++ toString lead

/-- Text of a non-finite value. -/
def nonFiniteText : FloatClass → Option String
  | .nan => some "NaN"
  | .infinite neg => some (if neg then "-inf" else "inf")
  | .finite _ => none

/-- The shortest decimal that reads back, positionally. -/
def display (f : BinaryFormat) (c : FloatClass) : String :=
  match c with
  | .finite v => (v.shortest f).positional
  | _ => (nonFiniteText c).getD ""

/-- The exact value rounded to `places` digits after the point, half to even. -/
def fixed (places : Nat) (c : FloatClass) : String :=
  match c with
  | .finite v =>
    let d := v.toPlaces places
    signText d.neg ++ pointed d.coeff places
  | _ => (nonFiniteText c).getD ""

/-- The exact value rounded to `places + 1` significant digits, as `d.ddddeX`. -/
def scientific (places : Nat) (c : FloatClass) : String :=
  match c with
  | .finite v =>
    let d := v.toSignificant places
    let e := if d.coeff = 0 then 0 else d.exp + places
    signText d.neg ++ pointed d.coeff places ++ "e" ++ toString e
  | _ => (nonFiniteText c).getD ""

/-- The shortest decimal of a finite value, as a number of a data file. -/
def number (f : BinaryFormat) (c : FloatClass) : Option String :=
  match c with
  | .finite v => some (v.shortest f).number
  | _ => none

/-- `display` of a `Float`. -/
def showFloat (x : Float) : String := display .double (ofFloat x)

/-- `display` of a `Float32`. -/
def showFloat32 (x : Float32) : String := display .single (ofFloat32 x)

/-- `display` of a `Double`. -/
def showDouble (x : Double) : String := display .double x.classify

/-- `fixed` of a `Double`. -/
def fixedDouble (places : Nat) (x : Double) : String := fixed places x.classify

/-- `fixed` of a `Float`. -/
def fixedFloat (places : Nat) (x : Float) : String := fixed places (ofFloat x)

/-- `fixed` of a `Float32`. -/
def fixedFloat32 (places : Nat) (x : Float32) : String := fixed places (ofFloat32 x)

theorem pointed_zero_places (coeff : Nat) : pointed coeff 0 = padDigits coeff 1 := by
  simp [pointed]

end SweptSpectrum.Decimal
