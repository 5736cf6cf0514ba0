import SweptSpectrum.Text.CaseTable

/-!
Full Unicode case conversion of strings.

Each character maps through the tables of `Text.CaseTable`; one character may become several
(`İ` lowercases to `i` and a combining dot above, `ß` uppercases to `SS`). The mapping is
context-free: a capital sigma always lowercases to `σ`.
-/

namespace SweptSpectrum.Text

/-- The image of code point `c` under a run, if the run covers it. -/
def CaseRun.image? (r : CaseRun) (c : Nat) : Option Nat :=
  if r.start ≤ c ∧ c < r.start + r.count * r.stride ∧ (c - r.start) % r.stride = 0 then
    some (c + r.delta).toNat
  else none

/-- Maps one character through a pair of tables; characters outside them map to themselves. -/
def mapCase (runs : List CaseRun) (special : List (Nat × List Nat)) (c : Char) : List Char :=
  match special.lookup c.toNat with
  | some cs => cs.map Char.ofNat
  | none =>
    match runs.findSome? (·.image? c.toNat) with
    | some n => [Char.ofNat n]
    | none => [c]

/-- The full lowercase mapping of a character. -/
def lowerChar (c : Char) : List Char :=
  if c.toNat < 0x80 then [c.toLower] else mapCase lowerRuns lowerSpecial c

/-- The full uppercase mapping of a character. -/
def upperChar (c : Char) : List Char :=
  if c.toNat < 0x80 then [c.toUpper] else mapCase upperRuns upperSpecial c

/-- A string in lowercase, character by character. -/
def toLowerFull (s : String) : String := String.ofList (s.toList.flatMap lowerChar)

/-- A string in uppercase, character by character. -/
def toUpperFull (s : String) : String := String.ofList (s.toList.flatMap upperChar)

/-- Two strings equal when their ASCII letters are compared without case. -/
def eqIgnoreAsciiCase (a b : String) : Bool :=
  a.toList.map Char.toLower == b.toList.map Char.toLower

theorem lowerChar_ascii (c : Char) (h : c.toNat < 0x80) : lowerChar c = [c.toLower] := by
  simp [lowerChar, h]

end SweptSpectrum.Text
