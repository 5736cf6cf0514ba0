import Mathlib
import SweptSpectrum.Proofs.Double.Exact

/-!
# Integer parts of binary64 numbers

`floor` and `ceil` keep the whole units of a finite number below a negative exponent, moving one
unit in their direction when a fraction was dropped. The result is a whole number below `2^53`,
so nothing is rounded: they compute `⌊q⌋` and `⌈q⌉` of the value `q`. Truncating a number that
is not negative takes its floor.

A quotient is rounded before any of these see it. When the exact quotient is a fraction `A / B`
of whole numbers with `A < 2^53` and `B ≤ 2^53`, rounding moves it by a relative `2^-53` at most,
which is less than its distance `1 / B` to the whole numbers around it; its floor and ceiling are
therefore those of the exact quotient (`div_floor_ceil`). This is what makes a bin index computed
in binary64 the index the rationals give.
-/

namespace SweptSpectrum.Double

open Decimal

/-! ## Whole units and a fraction -/

/-- A value at a non-negative exponent is an integer. -/
theorem toRat_of_exp_nonneg {v : BinaryValue} (hexp : 0 ≤ v.exp) :
    v.toRat = (((if v.neg then -1 else 1) * (v.mant * 2 ^ v.exp.toNat : ℕ) : ℤ) : ℚ) := by
  rw [BinaryValue.toRat, ← two_pow_toNat_div v.exp, Int.toNat_of_nonpos (by omega : -v.exp ≤ 0),
    pow_zero, div_one]
  split <;> push_cast <;> ring

/-- A value at a negative exponent `-k` is its whole units `mant / 2^k` and a remainder below
one unit, signed. -/
theorem toRat_of_exp_neg {v : BinaryValue} (hexp : v.exp < 0) :
    v.toRat = (if v.neg then -1 else 1) * ((v.mant / 2 ^ (-v.exp).toNat : ℕ) +
      ((v.mant % 2 ^ (-v.exp).toNat : ℕ) : ℚ) / 2 ^ (-v.exp).toNat) := by
  have hunit : (2 : ℚ) ^ (-v.exp).toNat ≠ 0 := by positivity
  have hsplit : (v.mant : ℚ) = (v.mant / 2 ^ (-v.exp).toNat : ℕ) * 2 ^ (-v.exp).toNat +
      (v.mant % 2 ^ (-v.exp).toNat : ℕ) := by
    exact_mod_cast (Nat.div_add_mod' v.mant (2 ^ (-v.exp).toNat)).symm
  rw [BinaryValue.toRat, ← two_pow_toNat_div v.exp, Int.toNat_of_nonpos hexp.le, pow_zero,
    mul_one_div, hsplit, add_div, mul_div_cancel_right₀ _ hunit]

theorem roundWith_of_exp_nonneg (f : Bool → ℕ → ℕ → ℕ → ℕ) {x : Double} {v : BinaryValue}
    (hv : x.classify = .finite v) (hexp : 0 ≤ v.exp) : roundWith f x = x := by
  unfold roundWith
  rw [hv]
  exact if_pos hexp

theorem roundWith_of_exp_neg (f : Bool → ℕ → ℕ → ℕ → ℕ) {x : Double} {v : BinaryValue}
    (hv : x.classify = .finite v) (hexp : v.exp < 0) :
    roundWith f x = ofRatio v.neg (f v.neg (v.mant / 2 ^ (-v.exp).toNat)
      (v.mant % 2 ^ (-v.exp).toNat) (2 ^ (-v.exp).toNat)) 1 := by
  unfold roundWith
  rw [hv]
  exact if_neg (not_le.mpr hexp)

/-- A rounding of a number with a fraction to the signed whole number `F` is exact: the result
is the number `F`, which a binary64 number holds. -/
theorem roundWith_denotes_of_exp_neg (f : Bool → ℕ → ℕ → ℕ → ℕ) {x : Double} {v : BinaryValue}
    (hv : x.classify = .finite v) (hexp : v.exp < 0) {z : ℤ}
    (hz : z = (if v.neg then -1 else 1) * (f v.neg (v.mant / 2 ^ (-v.exp).toNat)
      (v.mant % 2 ^ (-v.exp).toNat) (2 ^ (-v.exp).toNat) : ℤ))
    (hf : f v.neg (v.mant / 2 ^ (-v.exp).toNat) (v.mant % 2 ^ (-v.exp).toNat)
      (2 ^ (-v.exp).toNat) < 2 ^ 53) :
    (roundWith f x).Denotes z := by
  rw [roundWith_of_exp_neg f hv hexp]
  refine ofRatio_denotes_of_eq Nat.one_pos ?_ (representable_int hf (Nat.zero_le 971) ?_)
  · rw [hz, Nat.cast_one, div_one]
    split <;> push_cast <;> ring
  · rw [hz, Int.natAbs_mul, pow_zero, Nat.mul_one, Int.natAbs_natCast]
    split <;> simp

/-- Below a negative exponent the whole units of a mantissa stay below `2^52`, and the
remainder is a fraction of one unit. -/
theorem units_bounds {x : Double} {v : BinaryValue} (hv : x.classify = .finite v)
    (hexp : v.exp < 0) :
    v.mant / 2 ^ (-v.exp).toNat < 2 ^ 52 ∧
      (0 : ℚ) ≤ ((v.mant % 2 ^ (-v.exp).toNat : ℕ) : ℚ) / 2 ^ (-v.exp).toNat ∧
      ((v.mant % 2 ^ (-v.exp).toNat : ℕ) : ℚ) / 2 ^ (-v.exp).toNat < 1 := by
  have hm := (BinaryFormat.decode_finite_bounds hv).1
  have hunit : 2 ≤ 2 ^ (-v.exp).toNat :=
    le_trans (by norm_num) (Nat.pow_le_pow_right two_pos (by omega : 1 ≤ (-v.exp).toNat))
  refine ⟨?_, by positivity, ?_⟩
  · rw [Nat.div_lt_iff_lt_mul (by omega)]
    calc v.mant < 2 ^ 53 := hm
      _ = 2 ^ 52 * 2 := by norm_num
      _ ≤ 2 ^ 52 * 2 ^ (-v.exp).toNat := Nat.mul_le_mul_left _ hunit
  · rw [div_lt_one (by positivity)]
    exact_mod_cast Nat.mod_lt v.mant (by omega : 0 < 2 ^ (-v.exp).toNat)

theorem frac_pos {m k : ℕ} (h0 : m % 2 ^ k ≠ 0) : (0 : ℚ) < ((m % 2 ^ k : ℕ) : ℚ) / 2 ^ k :=
  div_pos (by exact_mod_cast Nat.pos_of_ne_zero h0) (by positivity)

/-! ## Floors, ceilings and truncation -/

/-- `floor` computes the floor of any finite number exactly. -/
theorem floor_denotes {x : Double} {r : ℚ} (hx : x.Denotes r) : x.floor.Denotes ⌊r⌋ := by
  obtain ⟨v, hv, rfl⟩ := hx
  rcases le_or_gt 0 v.exp with hexp | hexp
  · rw [floor, roundWith_of_exp_nonneg _ hv hexp, toRat_of_exp_nonneg hexp, Int.floor_intCast]
    exact ⟨v, hv, toRat_of_exp_nonneg hexp⟩
  obtain ⟨hq, hfrac0, hfrac1⟩ := units_bounds hv hexp
  refine roundWith_denotes_of_exp_neg _ hv hexp ?_ (by split <;> omega)
  rw [toRat_of_exp_neg hexp, Int.floor_eq_iff]
  -- below zero a remainder takes the floor one unit further down
  cases v.neg
  · simp only [Bool.false_eq_true, if_false, Bool.false_and, Int.cast_natCast, one_mul]
    constructor <;> linarith
  · by_cases h0 : v.mant % 2 ^ (-v.exp).toNat = 0
    · simp only [h0, if_true, Bool.true_and, ne_eq, not_true_eq_false, decide_false,
        Bool.false_eq_true, if_false, Int.cast_mul, Int.cast_neg, Int.cast_one, Int.cast_natCast,
        Nat.cast_zero, zero_div, add_zero]
      constructor <;> linarith
    · have hfrac := frac_pos h0
      simp only [h0, if_true, Bool.true_and, ne_eq, not_false_eq_true, decide_true, Int.cast_mul,
        Int.cast_neg, Int.cast_one, Int.cast_add, Int.cast_natCast, Nat.cast_add, Nat.cast_one]
      constructor <;> linarith

/-- `ceil` computes the ceiling of any finite number exactly. -/
theorem ceil_denotes {x : Double} {r : ℚ} (hx : x.Denotes r) : x.ceil.Denotes ⌈r⌉ := by
  obtain ⟨v, hv, rfl⟩ := hx
  rcases le_or_gt 0 v.exp with hexp | hexp
  · rw [ceil, roundWith_of_exp_nonneg _ hv hexp, toRat_of_exp_nonneg hexp, Int.ceil_intCast]
    exact ⟨v, hv, toRat_of_exp_nonneg hexp⟩
  obtain ⟨hq, hfrac0, hfrac1⟩ := units_bounds hv hexp
  refine roundWith_denotes_of_exp_neg _ hv hexp ?_ (by split <;> omega)
  rw [toRat_of_exp_neg hexp, Int.ceil_eq_iff]
  -- above zero a remainder takes the ceiling one unit further up
  cases v.neg
  · by_cases h0 : v.mant % 2 ^ (-v.exp).toNat = 0
    · simp only [h0, Bool.not_false, Bool.true_and, ne_eq, not_true_eq_false, decide_false,
        Bool.false_eq_true, if_false, Int.cast_natCast, one_mul, Nat.cast_zero, zero_div, add_zero]
      constructor <;> linarith
    · have hfrac := frac_pos h0
      simp only [h0, Bool.not_false, Bool.true_and, ne_eq, not_false_eq_true, decide_true,
        if_true, Bool.false_eq_true, if_false, Int.cast_one, Int.cast_add, Int.cast_natCast,
        Nat.cast_add, Nat.cast_one, one_mul]
      constructor <;> linarith
  · simp only [Bool.not_true, Bool.false_and, Bool.false_eq_true, if_false, if_true,
      Int.cast_mul, Int.cast_neg, Int.cast_one, Int.cast_natCast]
    constructor <;> linarith

/-- Truncating a value that is not negative takes its floor; under a sign bit such a value is
zero. -/
theorem truncInt_of_nonneg {v : BinaryValue} (h : 0 ≤ v.toRat) : v.truncInt = ⌊v.toRat⌋ := by
  have hval : v.toRat = (if v.neg then -1 else 1) *
      (((v.mant * 2 ^ v.exp.toNat : ℕ) : ℚ) / (2 ^ (-v.exp).toNat : ℕ)) := by
    rw [BinaryValue.toRat, Nat.cast_mul, Nat.cast_pow, Nat.cast_pow, Nat.cast_ofNat, mul_div_assoc,
      two_pow_toNat_div]
  unfold BinaryValue.truncInt
  rw [hval] at h ⊢
  by_cases hs : v.neg = true
  · -- a value that is not negative under the sign bit is zero
    simp only [hs, if_true, neg_one_mul, Left.nonneg_neg_iff] at h ⊢
    have hz : v.mant * 2 ^ v.exp.toNat / 2 ^ (-v.exp).toNat = 0 := by
      have hle := Nat.cast_div_le.trans h
      exact_mod_cast le_antisymm hle (Nat.cast_nonneg _)
    have hq : ((v.mant * 2 ^ v.exp.toNat : ℕ) : ℚ) / (2 ^ (-v.exp).toNat : ℕ) = 0 :=
      le_antisymm h (by positivity)
    rw [hz, hq, neg_zero, Int.floor_zero, Nat.cast_zero, neg_zero]
  · simp only [hs, Bool.false_eq_true, if_false, one_mul]
    rw [Rat.floor_natCast_div_natCast, Int.natCast_div]

/-- A number that is not negative converts to the floor of its value, clamped to the range. -/
theorem toIntSat_of_nonneg {x : Double} {r : ℚ} (hx : x.Denotes r) (hr : 0 ≤ r) (lo hi : ℤ) :
    x.toIntSat lo hi = max lo (min hi ⌊r⌋) := by
  obtain ⟨v, hv, rfl⟩ := hx
  rw [toIntSat_of_finite hv, truncInt_of_nonneg hr]

/-- A number that is not at least the whole number `n > 0` converts to an unsigned 64-bit
integer below `n`: a not-a-number and a negative number give zero, and the rest truncate below
`n`. -/
theorem toUInt64_lt_of_not_le {x : Double} {n : ℕ} (hn : 0 < n) (hrep : n < 2 ^ 53)
    (h : ¬ ofNat n ≤ x) : x.toUInt64 < n := by
  obtain ⟨u, hu, hval⟩ := ofNat_denotes_of_lt hrep
  have hle : le (ofNat n) x = false := Bool.eq_false_iff.mpr h
  unfold le at hle
  unfold toUInt64 toIntSat
  rw [hu] at hle
  cases hx : x.classify with
  | nan => simpa using hn
  | infinite neg =>
    rw [hx] at hle
    cases neg
    · simp at hle
    · simpa using hn
  | finite v =>
    rw [hx] at hle
    -- below `n` in whole multiples of `2^-1074`, so below `n` in value
    have hq : v.toRat < n := by
      have hscaled : v.scaled < u.scaled := by simpa using hle
      have hcast : (v.scaled : ℚ) < u.scaled := by exact_mod_cast hscaled
      rw [scaled_eq hx, scaled_eq hu, hval] at hcast
      exact lt_of_mul_lt_mul_right hcast (by positivity)
    have htrunc : v.truncInt < n := by
      cases hs : v.neg
      · have h0 : 0 ≤ v.toRat := by
          simp only [BinaryValue.toRat, hs, Bool.false_eq_true, if_false, one_mul]
          positivity
        rw [truncInt_of_nonneg h0]
        exact Int.floor_lt.mpr (by exact_mod_cast hq)
      · have hnat := Int.natCast_nonneg (v.mant * 2 ^ v.exp.toNat / 2 ^ (-v.exp).toNat)
        unfold BinaryValue.truncInt
        rw [if_pos hs]
        omega
    dsimp only
    omega

/-! ## Rounded quotients of whole numbers -/

/-- A value within a relative `2^-53` of a fraction `A / B` of whole numbers that is not whole,
with `A < 2^53`, lies strictly inside the unit interval the fraction lies in. -/
theorem floor_ceil_of_near {A B : ℕ} (ρ : ℚ) (hA : A < 2 ^ 53) (hB : 0 < B) (hdvd : ¬B ∣ A)
    (hnear : |ρ - A / B| ≤ A / B / 2 ^ 53) :
    ⌊ρ⌋ = (A / B : ℕ) ∧ ⌈ρ⌉ = (A / B : ℕ) + 1 := by
  have hBq : (0 : ℚ) < B := by exact_mod_cast hB
  -- the fraction is its whole part and a remainder between `1 / B` and `1 - 1 / B`
  have hsplit : (A : ℚ) / B = (A / B : ℕ) + ((A % B : ℕ) : ℚ) / B := by
    have h : (A : ℚ) = B * ((A / B : ℕ) : ℚ) + ((A % B : ℕ) : ℚ) := by
      exact_mod_cast (Nat.div_add_mod A B).symm
    rw [h, add_div, mul_div_cancel_left₀ _ hBq.ne']
  have hr0 : 0 < A % B := Nat.pos_of_ne_zero fun h => hdvd (Nat.dvd_of_mod_eq_zero h)
  have hr1 : (1 : ℚ) / B ≤ ((A % B : ℕ) : ℚ) / B :=
    div_le_div_of_nonneg_right (by exact_mod_cast hr0) hBq.le
  have hrB : ((A % B : ℕ) : ℚ) / B + 1 / B ≤ 1 := by
    rw [← add_div, div_le_one hBq]
    exact_mod_cast Nat.mod_lt A hB
  -- and the rounding error is below `1 / B`
  have herr : (A : ℚ) / B / 2 ^ 53 < 1 / B := by
    rw [div_right_comm]
    exact (div_lt_div_iff_of_pos_right hBq).mpr
      ((div_lt_one (by positivity)).mpr (by exact_mod_cast hA))
  obtain ⟨hlo, hhi⟩ := abs_le.mp hnear
  generalize (A : ℚ) / B / 2 ^ 53 = err at hlo hhi herr
  rw [hsplit] at hlo hhi
  constructor
  · rw [Int.floor_eq_iff, Int.cast_natCast]
    constructor <;> linarith
  · rw [Int.ceil_eq_iff, Int.cast_add, Int.cast_natCast, Int.cast_one]
    constructor <;> linarith

section Quotients

variable {x y : Double} {a b : ℚ} {A B : ℕ} (hx : x.Denotes a) (hy : y.Denotes b) (hb : b ≠ 0)
  (hA : A < 2 ^ 53) (hB : 0 < B) (hB53 : B ≤ 2 ^ 53) (hab : a / b = A / B)
include hx hy hb hA hB hB53 hab

/-- A quotient whose exact value is a fraction `A / B` of whole numbers, with `A < 2^53` and
`B ≤ 2^53`, is rounded without leaving the unit interval the exact value lies in: a whole
quotient is computed exactly, and any other moves by less than `1 / B`. -/
theorem div_floor_ceil : ∃ ρ, (x / y).Denotes ρ ∧ ⌊ρ⌋ = ⌊a / b⌋ ∧ ⌈ρ⌉ = ⌈a / b⌉ := by
  by_cases hdvd : B ∣ A
  · have hq : A / B < 2 ^ 53 := lt_of_le_of_lt (Nat.div_le_self A B) hA
    have hrep : Representable (a / b) := by
      rw [hab, ← Nat.cast_div hdvd (by exact_mod_cast hB.ne')]
      exact representable_natCast hq
    exact ⟨a / b, div_denotes hx hy hb hrep, rfl, rfl⟩
  have hBq : (0 : ℚ) < B := by exact_mod_cast hB
  have hpos : (0 : ℚ) ≤ A / B := by positivity
  have hA1 : (1 : ℚ) ≤ A := by
    exact_mod_cast Nat.one_le_iff_ne_zero.mpr fun h => hdvd (by rw [h]; exact dvd_zero B)
  -- the quotient lies in the normal range, between `1 / B` and `2^53`
  have hlo : (2 : ℚ) ^ (-1022 : ℤ) ≤ |a / b| := by
    rw [hab, abs_of_nonneg hpos]
    calc (2 : ℚ) ^ (-1022 : ℤ) ≤ 2 ^ (-53 : ℤ) := zpow_le_zpow_right₀ one_le_two (by norm_num)
      _ = 1 / 2 ^ 53 := by rw [zpow_neg, zpow_ofNat, one_div]
      _ ≤ 1 / B := one_div_le_one_div_of_le hBq (by exact_mod_cast hB53)
      _ ≤ A / B := div_le_div_of_nonneg_right hA1 hBq.le
  have hhi : |a / b| < 2 ^ (1023 : ℤ) := by
    rw [hab, abs_of_nonneg hpos]
    calc (A : ℚ) / B ≤ A := div_le_self (Nat.cast_nonneg _) (by exact_mod_cast hB)
      _ < 2 ^ 53 := by exact_mod_cast hA
      _ = 2 ^ (53 : ℤ) := (zpow_ofNat 2 53).symm
      _ < 2 ^ (1023 : ℤ) := zpow_lt_zpow_right₀ one_lt_two (by norm_num)
  obtain ⟨ρ, hρ, hnear⟩ := div_near hx hy hlo hhi
  rw [hab, abs_of_nonneg hpos] at hnear
  obtain ⟨hf, hc⟩ := floor_ceil_of_near ρ hA hB hdvd hnear
  obtain ⟨hf', hc'⟩ := floor_ceil_of_near ((A : ℚ) / B) hA hB hdvd
    (by rw [sub_self, abs_zero]; positivity)
  exact ⟨ρ, hρ, by rw [hab, hf, hf'], by rw [hab, hc, hc']⟩

/-- The floor of such a quotient is the floor of the exact quotient. -/
theorem floor_div_denotes : (x / y).floor.Denotes ⌊a / b⌋ := by
  obtain ⟨ρ, hρ, hfloor, -⟩ := div_floor_ceil hx hy hb hA hB hB53 hab
  exact hfloor ▸ floor_denotes hρ

/-- The ceiling of such a quotient is the ceiling of the exact quotient. -/
theorem ceil_div_denotes : (x / y).ceil.Denotes ⌈a / b⌉ := by
  obtain ⟨ρ, hρ, -, hceil⟩ := div_floor_ceil hx hy hb hA hB hB53 hab
  exact hceil ▸ ceil_denotes hρ

/-- Such a quotient converts to the floor of the exact quotient, clamped to the range. -/
theorem toIntSat_div (lo hi : ℤ) : (x / y).toIntSat lo hi = max lo (min hi ⌊a / b⌋) := by
  obtain ⟨ρ, hρ, hfloor, -⟩ := div_floor_ceil hx hy hb hA hB hB53 hab
  have hnonneg : 0 ≤ ρ := by
    rw [← Int.floor_nonneg, hfloor, hab]
    exact Int.floor_nonneg.mpr (by positivity)
  rw [toIntSat_of_nonneg hρ hnonneg, hfloor]

end Quotients

end SweptSpectrum.Double
