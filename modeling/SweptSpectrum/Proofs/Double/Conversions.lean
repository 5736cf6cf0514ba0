import SweptSpectrum.Double.Basic

/-!
# Conversions of binary64 numbers to integers

A saturating conversion lands in its target range whatever the number: a not-a-number gives
zero, an infinity the end of the range on its side, and a finite number its truncation clamped
to the range.
-/

namespace SweptSpectrum.Double

theorem toIntSat_mem (x : Double) {lo hi : Int} (hlo : lo ≤ 0) (hhi : 0 ≤ hi) :
    lo ≤ x.toIntSat lo hi ∧ x.toIntSat lo hi ≤ hi := by
  unfold toIntSat
  split
  · omega
  · split <;> omega
  · omega

theorem toInt64_mem (x : Double) : -2 ^ 63 ≤ x.toInt64 ∧ x.toInt64 < 2 ^ 63 := by
  have h := x.toIntSat_mem (by decide : (-2 ^ 63 : Int) ≤ 0) (by decide : (0 : Int) ≤ 2 ^ 63 - 1)
  unfold toInt64
  omega

theorem toInt16_mem (x : Double) : -2 ^ 15 ≤ x.toInt16 ∧ x.toInt16 < 2 ^ 15 := by
  have h := x.toIntSat_mem (by decide : (-2 ^ 15 : Int) ≤ 0) (by decide : (0 : Int) ≤ 2 ^ 15 - 1)
  unfold toInt16
  omega

end SweptSpectrum.Double
