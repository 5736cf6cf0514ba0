import SweptSpectrum.Arith

/-!
Byte strings and the big-endian words written in them.

A word of `width` bytes holds a natural number below `2^(8*width)`, most significant byte
first; a signed word holds its value modulo that power (two's complement). `beValue` and
`beBytes` are inverse on words that fit (`beValue_beBytes`). Hexadecimal text, two lowercase
digits per byte, is how byte strings are shown.
-/

namespace SweptSpectrum.Wire

/-- A string of bytes. -/
abbrev Bytes := List UInt8

/-- The number a big-endian byte string denotes. -/
def beValue (bs : Bytes) : Nat := bs.foldl (fun acc b => acc * 256 + b.toNat) 0

/-- The `width` bytes of `n` modulo `2^(8*width)`, most significant first. -/
def beBytes : Nat → Nat → Bytes
  | 0, _ => []
  | width + 1, n => beBytes width (n / 256) ++ [(n % 256).toUInt8]

/-- The two's complement reading of a word of `bits` bits. -/
def toSigned (bits : Nat) (n : Nat) : Int :=
  if n < 2 ^ (bits - 1) then n else (n : Int) - 2 ^ bits

/-- The two's complement word of `bits` bits that holds `i` modulo `2^bits`. -/
def ofSigned (bits : Nat) (i : Int) : Nat := (i % (2 ^ bits : Int)).toNat

/-- The value of a hexadecimal digit, either case. -/
def hexDigit? (c : Char) : Option Nat :=
  if '0' ≤ c ∧ c ≤ '9' then some (c.toNat - '0'.toNat)
  else if 'a' ≤ c ∧ c ≤ 'f' then some (c.toNat - 'a'.toNat + 10)
  else if 'A' ≤ c ∧ c ≤ 'F' then some (c.toNat - 'A'.toNat + 10)
  else none

/-- Pairs of hexadecimal digits read as bytes; an odd digit count or another character
fails. -/
def bytesOfHexDigits : List Char → Option Bytes
  | [] => some []
  | [_] => none
  | a :: b :: rest => do
    let hi ← hexDigit? a
    let lo ← hexDigit? b
    let tail ← bytesOfHexDigits rest
    pure ((hi * 16 + lo).toUInt8 :: tail)

/-- Reads hexadecimal text, ignoring blanks between the digits. -/
def ofHex? (s : String) : Option Bytes :=
  bytesOfHexDigits (s.toList.filter (fun c => !c.isWhitespace))

/-- The lowercase hexadecimal digit of a value below 16. -/
def hexChar (n : Nat) : Char :=
  if n < 10 then Char.ofNat ('0'.toNat + n) else Char.ofNat ('a'.toNat + n - 10)

/-- Lowercase hexadecimal text, two digits per byte. -/
def toHex (bs : Bytes) : String :=
  String.ofList (bs.flatMap fun b => [hexChar (b.toNat / 16), hexChar (b.toNat % 16)])

theorem beValue_append_byte (bs : Bytes) (b : UInt8) :
    beValue (bs ++ [b]) = beValue bs * 256 + b.toNat := by
  simp [beValue, List.foldl_append]

theorem length_beBytes (width n : Nat) : (beBytes width n).length = width := by
  induction width generalizing n with
  | zero => rfl
  | succ w ih => simp [beBytes, ih]

theorem beValue_beBytes (width n : Nat) : beValue (beBytes width n) = n % 2 ^ (8 * width) := by
  induction width generalizing n with
  | zero => simp [beBytes, beValue, Nat.mod_one]
  | succ w ih =>
    rw [beBytes, beValue_append_byte, ih]
    have h256 : ((n % 256).toUInt8).toNat = n % 256 := by simp [Nat.toUInt8]
    rw [h256, show 8 * (w + 1) = 8 * w + 8 by omega, Nat.pow_add, Nat.mul_comm (2 ^ (8 * w)),
      show (2:Nat) ^ 8 = 256 from rfl, Nat.mod_mul]
    omega

end SweptSpectrum.Wire
