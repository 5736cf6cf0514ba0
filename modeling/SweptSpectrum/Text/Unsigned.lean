import SweptSpectrum.Arith

/-!
Integer literals: an optional sign and decimal digits, read into a bounded range.

Reading stops at the first fault, left to right: an empty text, a character that is not a
digit (a sign alone counts as one), or a value past the bounds of the target type. So
`"99999999999999999999x"` overflows a 64-bit word before its `x` is seen.
-/

namespace SweptSpectrum.Text

/-- Why a text is not an integer of the target type. -/
inductive IntLiteralError where
  | empty
  | invalidDigit
  | tooLarge
  | tooSmall
  deriving Repr, DecidableEq

/-- The wording of each fault. -/
def IntLiteralError.message : IntLiteralError → String
  | .empty => "cannot parse integer from empty string"
  | .invalidDigit => "invalid digit found in string"
  | .tooLarge => "number too large to fit in target type"
  | .tooSmall => "number too small to fit in target type"

/-- Accumulates decimal digits onto `acc` while it stays at most `bound`. -/
def readDigits (bound : Nat) : Nat → List Char → Except IntLiteralError Nat
  | acc, [] => .ok acc
  | acc, c :: cs =>
    if c.isDigit then
      let next := acc * 10 + (c.toNat - '0'.toNat)
      if next > bound then .error .tooLarge else readDigits bound next cs
    else .error .invalidDigit

/-- Reads an unsigned integer at most `bound`; a leading `+` is allowed, a `-` is not. -/
def parseUnsigned (bound : Nat) (s : String) : Except IntLiteralError Nat :=
  match s.toList with
  | [] => .error .empty
  | ['+'] => .error .invalidDigit
  | ['-'] => .error .invalidDigit
  | '+' :: cs => readDigits bound 0 cs
  | cs => readDigits bound 0 cs

/-- Reads a signed integer in `[-(bound + 1), bound]`, the range of a two's complement word. -/
def parseSigned (bound : Nat) (s : String) : Except IntLiteralError Int :=
  match s.toList with
  | [] => .error .empty
  | ['+'] => .error .invalidDigit
  | ['-'] => .error .invalidDigit
  | '-' :: cs =>
    match readDigits (bound + 1) 0 cs with
    | .ok n => .ok (-(n : Int))
    | .error .tooLarge => .error .tooSmall
    | .error e => .error e
  | '+' :: cs => (readDigits bound 0 cs).map Int.ofNat
  | cs => (readDigits bound 0 cs).map Int.ofNat

/-- The largest value of an unsigned word of `bits` bits. -/
def maxUnsigned (bits : Nat) : Nat := 2 ^ bits - 1

theorem readDigits_nil (bound acc : Nat) : readDigits bound acc [] = .ok acc := rfl

end SweptSpectrum.Text
