import SweptSpectrum.Arith

/-!
The trailer word of a data packet: five flags, each with an enable bit and an indicator bit.

A flag reads as set only when both its bits are set. Writing sets every enable bit and the
indicator bits of the set flags, so `ofWord (toWord t) = t` (`ofWord_toWord`).
-/

namespace SweptSpectrum.Vrt

/-- The state flags of a data packet. -/
structure Trailer where
  validData : Bool := false
  referenceLock : Bool := false
  spectralInversion : Bool := false
  overRange : Bool := false
  sampleLoss : Bool := false
  deriving Repr, DecidableEq, Inhabited

namespace Trailer

/-- The flags an instrument sets on ordinary data: valid data and a locked reference. -/
def standard : Trailer := { validData := true, referenceLock := true }

/-- The (enable, indicator) bit positions of each flag. -/
def validBits : Nat × Nat := (30, 18)
def lockBits : Nat × Nat := (29, 17)
def inversionBits : Nat × Nat := (26, 14)
def overRangeBits : Nat × Nat := (25, 13)
def lossBits : Nat × Nat := (24, 12)

/-- The contribution of one flag to the word: its enable bit, and its indicator bit if set. -/
def flagWord (bits : Nat × Nat) (set : Bool) : Nat :=
  2 ^ bits.1 + (if set then 2 ^ bits.2 else 0)

/-- The trailer word. -/
def toWord (t : Trailer) : Nat :=
  flagWord validBits t.validData + flagWord lockBits t.referenceLock +
    flagWord inversionBits t.spectralInversion + flagWord overRangeBits t.overRange +
    flagWord lossBits t.sampleLoss

/-- A flag is set when both of its bits are. -/
def flag (word : Nat) (bits : Nat × Nat) : Bool := word.testBit bits.1 && word.testBit bits.2

/-- Reads the flags of a trailer word. -/
def ofWord (word : Nat) : Trailer :=
  { validData := flag word validBits
    referenceLock := flag word lockBits
    spectralInversion := flag word inversionBits
    overRange := flag word overRangeBits
    sampleLoss := flag word lossBits }

theorem ofWord_toWord (t : Trailer) : ofWord (toWord t) = t := by
  rcases t with ⟨a, b, c, d, e⟩
  cases a <;> cases b <;> cases c <;> cases d <;> cases e <;> decide

end Trailer

end SweptSpectrum.Vrt
