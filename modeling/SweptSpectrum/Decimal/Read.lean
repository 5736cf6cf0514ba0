import SweptSpectrum.Decimal.Binary

/-!
Reading decimal floating-point literals.

The grammar: an optional sign, then `inf`, `infinity` or `nan` in any case, or digits with at
most one point and at least one digit, followed by an optional exponent (`e` or `E`, an
optional sign, at least one digit). Nothing else may stand around it, blanks included. The
value is the binary64 number nearest to the exact decimal, ties to even.
-/

namespace SweptSpectrum.Decimal

/-- Why a text is not a floating-point literal. -/
inductive FloatLiteralError where
  | empty
  | invalid
  deriving Repr, DecidableEq

/-- The wording of each fault. -/
def FloatLiteralError.message : FloatLiteralError → String
  | .empty => "cannot parse float from empty string"
  | .invalid => "invalid float literal"

/-- Splits off the leading decimal digits: their value and how many there were. -/
def takeDigits : List Char → Nat → Nat → Nat × Nat × List Char
  | c :: cs, acc, n =>
    if c.isDigit then takeDigits cs (acc * 10 + (c.toNat - '0'.toNat)) (n + 1) else (acc, n, c :: cs)
  | [], acc, n => (acc, n, [])

/-- The binary64 value of `coeff * 10^exp`, with the given sign. Decimal exponents far past
the format's range give zero or infinity without computing the power. -/
def floatOfDecimal (neg : Bool) (coeff : Nat) (exp : Int) : Float :=
  let len := (toString coeff).length
  if coeff = 0 then floatOfRatio neg 0 1
  else if exp + len > 310 then (if neg then -1.0 else 1.0) / 0.0
  else if exp + len < -330 then floatOfRatio neg 0 1
  else if exp ≥ 0 then floatOfRatio neg (coeff * 10 ^ exp.toNat) 1
  else floatOfRatio neg coeff (10 ^ (-exp).toNat)

/-- Reads the exponent part after `e`: an optional sign and at least one digit, nothing after. -/
def readExponent (cs : List Char) : Option Int :=
  let (neg, rest) := match cs with
    | '+' :: r => (false, r)
    | '-' :: r => (true, r)
    | r => (false, r)
  let (value, count, tail) := takeDigits rest 0 0
  if count = 0 ∨ tail ≠ [] then none
  else some (if neg then -(value : Int) else value)

/-- Reads the unsigned part of a literal. -/
def readUnsignedLiteral (neg : Bool) (cs : List Char) : Option Float :=
  let word := String.ofList (cs.map Char.toLower)
  if word = "inf" ∨ word = "infinity" then some ((if neg then -1.0 else 1.0) / 0.0)
  else if word = "nan" then some (0.0 / 0.0)
  else
    let (whole, wholeCount, rest) := takeDigits cs 0 0
    let (frac, fracCount, rest) := match rest with
      | '.' :: r => takeDigits r whole 0
      | r => (whole, 0, r)
    if wholeCount + fracCount = 0 then none
    else
      let exp? : Option Int := match rest with
        | [] => some 0
        | c :: r => if c = 'e' ∨ c = 'E' then readExponent r else none
      exp?.map fun e => floatOfDecimal neg frac (e - fracCount)

/-- Reads a floating-point literal. -/
def parseFloatLiteral (s : String) : Except FloatLiteralError Float :=
  match s.toList with
  | [] => .error .empty
  | cs =>
    let (neg, rest) := match cs with
      | '+' :: r => (false, r)
      | '-' :: r => (true, r)
      | r => (false, r)
    match readUnsignedLiteral neg rest with
    | some x => .ok x
    | none => .error .invalid

end SweptSpectrum.Decimal
