import Mathlib
import SweptSpectrum.Proofs.Double.Encode

/-!
# Exact binary64 arithmetic

`Double.Denotes x q` says that `x` is a finite number of value `q`. Every operation computes its
exact result and rounds it once; when that result is a binary64 number already
(`Representable`), nothing is rounded, and the operations compute on values as the rationals do.
An integer scaled down by a power of two and back up therefore comes out as itself, which is what
lets a fixed-point field of the wire format be read and written again unchanged.
-/

namespace SweptSpectrum.Double

open Decimal

/-- `x` is a finite number whose value is `q`. -/
def Denotes (x : Double) (q : ℚ) : Prop := ∃ v, x.classify = .finite v ∧ v.toRat = q

/-- The rationals a binary64 number holds exactly: with either sign, a mantissa below `2^53`
times a power of two from the subnormal step `2^-1074` up to `2^971`. -/
def Representable (q : ℚ) : Prop :=
  ∃ m : ℕ, ∃ e : ℤ, m < 2 ^ 53 ∧ -1074 ≤ e ∧ e ≤ 971 ∧ |q| = m * 2 ^ e

/-! ## Values -/

theorem abs_toRat (v : BinaryValue) : |v.toRat| = v.mant * 2 ^ v.exp := by
  have hpos : (0 : ℚ) ≤ v.mant * 2 ^ v.exp := by positivity
  unfold BinaryValue.toRat
  split <;> simp [abs_of_nonneg hpos]

theorem representable_of_abs {q r : ℚ} (h : |q| = |r|) (hr : Representable r) :
    Representable q := by
  obtain ⟨m, e, hm, hlo, hhi, habs⟩ := hr
  exact ⟨m, e, hm, hlo, hhi, h.trans habs⟩

/-- An integer `± m * 2^k` with `m < 2^53` and `k ≤ 971`, divided by `2^r` for `r` up to `103`,
is held exactly. -/
theorem representable_int_div {n : ℤ} {m k : ℕ} (hm : m < 2 ^ 53) (hk : k ≤ 971)
    (hn : n.natAbs = m * 2 ^ k) (r : ℕ) (hr : r ≤ 103) : Representable ((n : ℚ) / 2 ^ r) := by
  refine ⟨m, (k : ℤ) - r, hm, by omega, by omega, ?_⟩
  have habs : |(n : ℚ)| = m * 2 ^ k := by
    rw [← Int.cast_abs, ← Nat.cast_natAbs, hn]
    push_cast
    rfl
  rw [abs_div, abs_pow, abs_two, habs, zpow_sub₀ two_ne_zero, zpow_natCast, zpow_natCast,
    mul_div_assoc]

theorem representable_int {n : ℤ} {m k : ℕ} (hm : m < 2 ^ 53) (hk : k ≤ 971)
    (hn : n.natAbs = m * 2 ^ k) : Representable (n : ℚ) := by
  simpa using representable_int_div hm hk hn 0 (by omega)

/-- The sign of an exclusive or of signs is the product of the signs. -/
theorem sign_bne (s t : Bool) :
    ((if (s != t) = true then -1 else 1) : ℚ) =
      (if s = true then -1 else 1) * (if t = true then -1 else 1) := by
  cases s <;> cases t <;> norm_num

/-- Dividing signed magnitudes divides the magnitudes under the exclusive or of the signs. -/
theorem sign_div (s t : Bool) (a b : ℚ) :
    (if s = true then -1 else 1) * a / ((if t = true then -1 else 1) * b) =
      (if (s != t) = true then -1 else 1) * (a / b) := by
  cases s <;> cases t <;> simp [neg_div, div_neg]

/-- The power of two that `ofDyadic` and `div` spread over numerator and denominator. -/
theorem two_pow_toNat_div (d : ℤ) : (2 : ℚ) ^ d.toNat / 2 ^ (-d).toNat = 2 ^ d := by
  rcases le_total 0 d with hd | hd
  · rw [Int.toNat_of_nonpos (by omega : -d ≤ 0), pow_zero, div_one, ← zpow_natCast,
      Int.toNat_of_nonneg hd]
  · rw [Int.toNat_of_nonpos hd, pow_zero, one_div, ← zpow_natCast, Int.toNat_of_nonneg (by omega),
      zpow_neg, inv_inv]

/-! ## Rounding an exact ratio -/

/-- `ofRatio` sets the sign bit asked for on the encoding: a non-negative finite value of the
encoding comes back with that sign. -/
theorem ofRatio_denotes_encode (neg : Bool) {num den : ℕ} {v : BinaryValue}
    (hlt : BinaryFormat.double.encode num den < 2 ^ 63)
    (hdec : BinaryFormat.double.decode (BinaryFormat.double.encode num den) = .finite v)
    (hneg : v.neg = false) :
    (ofRatio neg num den).Denotes ((if neg then -1 else 1) * v.toRat) := by
  have hmag : v.toRat = v.mant * 2 ^ v.exp := by
    rw [BinaryValue.toRat, hneg, if_neg Bool.false_ne_true, one_mul]
  have hbits : (ofRatio neg num den).bits.toNat =
      BinaryFormat.double.encode num den + if neg then 2 ^ 63 else 0 :=
    UInt64.toNat_ofNat_of_lt' (by have : UInt64.size = 2 ^ 64 := rfl; split <;> omega)
  unfold Denotes classify
  rw [hbits]
  cases neg with
  | false =>
    rw [if_neg Bool.false_ne_true, Nat.add_zero]
    exact ⟨v, hdec, by rw [if_neg Bool.false_ne_true, one_mul]⟩
  | true =>
    rw [if_pos rfl]
    refine ⟨_, BinaryFormat.decode_add_signBit hlt hdec, ?_⟩
    rw [BinaryValue.toRat, if_pos rfl, hmag]

/-- `ofRatio` of a ratio that is a binary64 number is that number, with the sign asked for. -/
theorem ofRatio_denotes (neg : Bool) {num den : ℕ} (hden : 0 < den)
    (hrep : Representable ((num : ℚ) / den)) :
    (ofRatio neg num den).Denotes ((if neg then -1 else 1) * (num / den)) := by
  obtain ⟨m, e, hm, hlo, hhi, habs⟩ := hrep
  rw [abs_of_nonneg (by positivity)] at habs
  obtain ⟨hlt, v, hdec, hneg, hval⟩ := BinaryFormat.encode_exact hden hm hlo hhi habs
  rw [← hval]
  exact ofRatio_denotes_encode neg hlt hdec hneg

/-- `ofRatio` of a ratio in the normal range is within half a unit in the last place of it,
with the sign asked for. -/
theorem ofRatio_near (neg : Bool) {num den : ℕ} (hden : 0 < den)
    (hlo : (2 : ℚ) ^ (-1022 : ℤ) ≤ num / den) (hhi : (num : ℚ) / den < 2 ^ (1023 : ℤ)) :
    ∃ r, (ofRatio neg num den).Denotes ((if neg then -1 else 1) * r) ∧
      |r - num / den| ≤ num / den / 2 ^ 53 := by
  obtain ⟨hlt, v, hdec, hneg, hval⟩ := BinaryFormat.encode_near hden hlo hhi
  exact ⟨v.toRat, ofRatio_denotes_encode neg hlt hdec hneg, hval⟩

/-- An exact result `q` given to `ofRatio` as a sign and a magnitude comes back as `q` when it
is a binary64 number. -/
theorem ofRatio_denotes_of_eq {neg : Bool} {num den : ℕ} {q : ℚ} (hden : 0 < den)
    (hq : q = (if neg then -1 else 1) * (num / den)) (hrep : Representable q) :
    (ofRatio neg num den).Denotes q := by
  have habs : |((num : ℚ) / den)| = |q| := by
    rw [hq, abs_mul]
    split <;> simp
  rw [hq]
  exact ofRatio_denotes neg hden (representable_of_abs habs hrep)

theorem representable_natCast {n : ℕ} (h : n < 2 ^ 53) : Representable n :=
  ⟨n, 0, h, by norm_num, by norm_num, by rw [abs_of_nonneg (Nat.cast_nonneg n), zpow_zero, mul_one]⟩

theorem ofNat_denotes {n : ℕ} (hrep : Representable n) : (ofNat n).Denotes n :=
  ofRatio_denotes_of_eq Nat.one_pos (by simp) hrep

theorem ofNat_denotes_of_lt {n : ℕ} (h : n < 2 ^ 53) : (ofNat n).Denotes n :=
  ofNat_denotes (representable_natCast h)

/-- An integer is the sign `ofRatio` is given for it times its magnitude. -/
theorem sign_mul_abs (n : ℤ) :
    ((if decide (n < 0) = true then -1 else 1) : ℚ) * |(n : ℚ)| = n := by
  by_cases hn : n < 0
  · rw [if_pos (decide_eq_true hn), abs_of_neg (by exact_mod_cast hn), neg_one_mul, neg_neg]
  · rw [if_neg (by simpa using hn), abs_of_nonneg (by exact_mod_cast not_lt.mp hn), one_mul]

theorem ofInt_denotes {n : ℤ} (hrep : Representable n) : (ofInt n).Denotes n := by
  refine ofRatio_denotes_of_eq Nat.one_pos ?_ hrep
  rw [Nat.cast_one, div_one, Nat.cast_natAbs, Int.cast_abs, sign_mul_abs]

/-! ## Products and quotients -/

/-- A product that is a binary64 number is computed exactly. -/
theorem mul_denotes {x y : Double} {a b : ℚ} (hx : x.Denotes a) (hy : y.Denotes b)
    (hrep : Representable (a * b)) : (x * y).Denotes (a * b) := by
  obtain ⟨u, hu, rfl⟩ := hx
  obtain ⟨w, hw, rfl⟩ := hy
  have hxy : x * y = ofDyadic (u.neg != w.neg) (u.mant * w.mant) (u.exp + w.exp) := by
    show mul x y = _
    unfold mul
    rw [hu, hw]
  rw [hxy]
  refine ofRatio_denotes_of_eq (Nat.two_pow_pos _) ?_ hrep
  rw [Nat.cast_mul, Nat.cast_pow, Nat.cast_pow, Nat.cast_ofNat, mul_div_assoc, two_pow_toNat_div,
    sign_bne, BinaryValue.toRat, BinaryValue.toRat, zpow_add₀ two_ne_zero]
  push_cast
  ring

/-- What `div` hands to `ofRatio` for two finite numbers: the sign of the quotient times the
ratio of the mantissas, each scaled up by the other's larger exponent. -/
theorem div_eq_ofRatio {x y : Double} {u w : BinaryValue} (hu : x.classify = .finite u)
    (hw : y.classify = .finite w) (hw0 : w.mant ≠ 0) :
    x / y = ofRatio (u.neg != w.neg) (u.mant * 2 ^ (u.exp - w.exp).toNat)
      (w.mant * 2 ^ (w.exp - u.exp).toNat) ∧
    (if (u.neg != w.neg) = true then -1 else 1) *
      (((u.mant * 2 ^ (u.exp - w.exp).toNat : ℕ) : ℚ) / (w.mant * 2 ^ (w.exp - u.exp).toNat : ℕ)) =
      u.toRat / w.toRat := by
  constructor
  · show div x y = _
    unfold div
    rw [hu, hw]
    exact if_neg hw0
  · have hd : w.exp - u.exp = -(u.exp - w.exp) := by ring
    rw [Nat.cast_mul, Nat.cast_mul, Nat.cast_pow, Nat.cast_pow, Nat.cast_ofNat, hd,
      mul_div_mul_comm, two_pow_toNat_div, BinaryValue.toRat, BinaryValue.toRat, sign_div,
      mul_div_mul_comm, zpow_sub₀ two_ne_zero]

/-- A quotient by a nonzero number that is a binary64 number is computed exactly. -/
theorem div_denotes {x y : Double} {a b : ℚ} (hx : x.Denotes a) (hy : y.Denotes b) (hb : b ≠ 0)
    (hrep : Representable (a / b)) : (x / y).Denotes (a / b) := by
  obtain ⟨u, hu, rfl⟩ := hx
  obtain ⟨w, hw, rfl⟩ := hy
  have hw0 : w.mant ≠ 0 := by
    rintro h
    apply hb
    simp [BinaryValue.toRat, h]
  obtain ⟨hxy, hval⟩ := div_eq_ofRatio hu hw hw0
  rw [hxy]
  exact ofRatio_denotes_of_eq (Nat.mul_pos (Nat.pos_of_ne_zero hw0) (Nat.two_pow_pos _))
    hval.symm hrep

/-- A quotient in the normal range is within half a unit in the last place of the exact one. -/
theorem div_near {x y : Double} {a b : ℚ} (hx : x.Denotes a) (hy : y.Denotes b)
    (hlo : (2 : ℚ) ^ (-1022 : ℤ) ≤ |a / b|) (hhi : |a / b| < 2 ^ (1023 : ℤ)) :
    ∃ r, (x / y).Denotes r ∧ |r - a / b| ≤ |a / b| / 2 ^ 53 := by
  obtain ⟨u, hu, rfl⟩ := hx
  obtain ⟨w, hw, rfl⟩ := hy
  have hw0 : w.mant ≠ 0 := by
    rintro h
    have hzero : w.toRat = 0 := by simp [BinaryValue.toRat, h]
    rw [hzero, div_zero, abs_zero] at hlo
    exact absurd hlo (not_le.mpr (zpow_pos two_pos _))
  obtain ⟨hxy, hval⟩ := div_eq_ofRatio hu hw hw0
  -- the magnitude handed to `ofRatio` is that of the quotient
  have habs : |u.toRat / w.toRat| = ((u.mant * 2 ^ (u.exp - w.exp).toNat : ℕ) : ℚ) /
      (w.mant * 2 ^ (w.exp - u.exp).toNat : ℕ) := by
    rw [← hval, abs_mul]
    split <;> simp only [abs_neg, abs_one, one_mul] <;>
      exact abs_of_nonneg (div_nonneg (Nat.cast_nonneg _) (Nat.cast_nonneg _))
  rw [habs] at hlo hhi ⊢
  obtain ⟨r, hr, hnear⟩ := ofRatio_near (u.neg != w.neg)
    (Nat.mul_pos (Nat.pos_of_ne_zero hw0) (Nat.two_pow_pos _)) hlo hhi
  refine ⟨_, hxy ▸ hr, ?_⟩
  rw [← hval, ← mul_sub, abs_mul]
  split <;> simpa using hnear

/-! ## Negation and sums -/

/-- Negation flips the sign bit, and so the value. -/
theorem neg_denotes {x : Double} {a : ℚ} (hx : x.Denotes a) : (-x).Denotes (-a) := by
  obtain ⟨v, hv, rfl⟩ := hx
  have hbits : (-x).bits.toNat = x.bits.toNat ^^^ 2 ^ 63 := by
    show (x.bits ^^^ 0x8000000000000000).toNat = _
    rw [UInt64.toNat_xor]
    rfl
  refine ⟨{ v with neg := !v.neg }, ?_, ?_⟩
  · unfold classify
    rw [hbits]
    exact BinaryFormat.decode_xor_signBit hv
  · show (if (!v.neg) = true then (-1 : ℚ) else 1) * (v.mant * 2 ^ v.exp) =
      -((if v.neg = true then -1 else 1) * (v.mant * 2 ^ v.exp))
    cases v.neg <;> simp

/-- A finite value in whole multiples of `2^-1074`. -/
theorem scaled_eq {x : Double} {v : BinaryValue} (hv : x.classify = .finite v) :
    (v.scaled : ℚ) = v.toRat * 2 ^ (1074 : ℕ) := by
  have hlo := (BinaryFormat.decode_finite_bounds hv).2.1
  have hpow : (2 : ℚ) ^ (v.exp + 1074).toNat = 2 ^ v.exp * 2 ^ (1074 : ℕ) := by
    rw [← zpow_natCast, Int.toNat_of_nonneg (by omega), zpow_add₀ two_ne_zero, ← zpow_natCast]
    rfl
  unfold BinaryValue.scaled BinaryValue.toRat
  rw [Int.cast_mul, Int.cast_natCast, Nat.cast_mul, Nat.cast_pow, Nat.cast_ofNat, hpow]
  generalize (2 : ℚ) ^ (1074 : ℕ) = unit
  split <;> simp only [Int.cast_neg, Int.cast_one] <;> ring

theorem zero_denotes (neg : Bool) : (zero neg).Denotes 0 := by
  cases neg
  · exact ⟨⟨false, 0, -1074, false⟩, rfl, by simp [BinaryValue.toRat]⟩
  · exact ⟨⟨true, 0, -1074, false⟩, rfl, by simp [BinaryValue.toRat]⟩

/-- A sum that is a binary64 number is computed exactly. -/
theorem add_denotes {x y : Double} {a b : ℚ} (hx : x.Denotes a) (hy : y.Denotes b)
    (hrep : Representable (a + b)) : (x + y).Denotes (a + b) := by
  obtain ⟨u, hu, rfl⟩ := hx
  obtain ⟨w, hw, rfl⟩ := hy
  -- the sum in whole multiples of `2^-1074`
  have hsum : u.toRat + w.toRat = ((u.scaled + w.scaled : ℤ) : ℚ) / 2 ^ (1074 : ℕ) := by
    push_cast
    rw [scaled_eq hu, scaled_eq hw]
    field_simp
  have hxy : x + y = if u.scaled + w.scaled = 0 then zero (u.neg && w.neg)
      else ofRatio (decide (u.scaled + w.scaled < 0)) (u.scaled + w.scaled).natAbs (2 ^ 1074) := by
    show add x y = _
    unfold add
    rw [hu, hw]
  rw [hxy, hsum]
  split
  · rename_i hs
    simp only [hs, Int.cast_zero, zero_div]
    exact zero_denotes _
  · refine ofRatio_denotes_of_eq (by positivity) ?_ (hsum ▸ hrep)
    rw [Nat.cast_natAbs, Int.cast_abs, Nat.cast_pow, Nat.cast_ofNat, ← mul_div_assoc,
      sign_mul_abs]

/-- A difference that is a binary64 number is computed exactly. -/
theorem sub_denotes {x y : Double} {a b : ℚ} (hx : x.Denotes a) (hy : y.Denotes b)
    (hrep : Representable (a - b)) : (x - y).Denotes (a - b) := by
  rw [sub_eq_add_neg] at hrep ⊢
  exact add_denotes hx (neg_denotes hy) hrep

/-! ## Integers -/

/-- A finite value that is an integer `k`, in whole numbers: the mantissa times the exponent's
power of two is `|k|`, and the sign bit gives the sign of `k`. -/
theorem int_of_toRat {v : BinaryValue} {k : ℤ} (h : v.toRat = k) :
    v.mant * 2 ^ v.exp.toNat = k.natAbs * 2 ^ (-v.exp).toNat ∧
      (if v.neg then -1 else 1) * (k.natAbs : ℚ) = k := by
  have habs : (v.mant : ℚ) * 2 ^ v.exp = k.natAbs := by
    rw [← abs_toRat, h, Nat.cast_natAbs, Int.cast_abs]
  constructor
  · have hcast : ((v.mant * 2 ^ v.exp.toNat : ℕ) : ℚ) = ((k.natAbs * 2 ^ (-v.exp).toNat : ℕ) : ℚ) := by
      push_cast
      rw [← habs, mul_assoc, ← two_pow_toNat_div v.exp, div_mul_cancel₀ _ (by positivity)]
    exact_mod_cast hcast
  · rw [← habs]
    exact h

theorem truncInt_of_toRat {v : BinaryValue} {k : ℤ} (h : v.toRat = k) : v.truncInt = k := by
  obtain ⟨hnat, hsign⟩ := int_of_toRat h
  unfold BinaryValue.truncInt
  rw [hnat, Nat.mul_div_cancel _ (Nat.two_pow_pos _)]
  -- the sign relation holds in the rationals; it is an equation of integers cast there
  by_cases hn : v.neg = true
  · rw [if_pos hn] at hsign ⊢
    exact Int.cast_inj.mp (by simpa using hsign : ((-1 * (k.natAbs : ℤ) : ℤ) : ℚ) = k)
  · rw [if_neg hn] at hsign ⊢
    exact Int.cast_inj.mp (by simpa using hsign : ((1 * (k.natAbs : ℤ) : ℤ) : ℚ) = k)

/-- `roundWith` keeps a number whose value is an integer, for any rounding that keeps a whole
part with nothing left over. -/
theorem roundWith_denotes_int (f : Bool → ℕ → ℕ → ℕ → ℕ)
    (hf : ∀ neg q unit, 0 < unit → f neg q 0 unit = q) {x : Double} {k : ℤ} (hx : x.Denotes k) :
    (roundWith f x).Denotes k := by
  obtain ⟨v, hv, hval⟩ := hx
  obtain ⟨hnat, hsign⟩ := int_of_toRat hval
  have hbound := (BinaryFormat.decode_finite_bounds hv).1
  unfold roundWith
  rw [hv]
  dsimp only
  split
  · exact ⟨v, hv, hval⟩
  · rename_i hexp
    -- below exponent zero the mantissa is `|k|` whole units
    have hmant : v.mant = k.natAbs * 2 ^ (-v.exp).toNat := by
      rwa [Int.toNat_of_nonpos (by omega), pow_zero, Nat.mul_one] at hnat
    have hunit : 0 < 2 ^ (-v.exp).toNat := Nat.two_pow_pos _
    have hk : k.natAbs < 2 ^ 53 :=
      lt_of_le_of_lt (hmant ▸ Nat.le_mul_of_pos_right _ hunit) hbound
    rw [hmant, Nat.mul_mod_left, Nat.mul_div_cancel _ hunit, hf _ _ _ hunit]
    refine ofRatio_denotes_of_eq Nat.one_pos ?_ (representable_int hk (Nat.zero_le 971) (by simp))
    rw [Nat.cast_one, div_one, hsign]

theorem round_denotes_int {x : Double} {k : ℤ} (hx : x.Denotes k) : x.round.Denotes k :=
  roundWith_denotes_int _ (fun _ _ _ hunit => if_neg (by omega)) hx

theorem toIntSat_of_finite {x : Double} {v : BinaryValue} (hv : x.classify = .finite v)
    (lo hi : ℤ) : x.toIntSat lo hi = max lo (min hi v.truncInt) := by
  unfold toIntSat
  rw [hv]

theorem toIntSat_denotes_int {x : Double} {k : ℤ} (hx : x.Denotes k) (lo hi : ℤ) :
    x.toIntSat lo hi = max lo (min hi k) := by
  obtain ⟨v, hv, hval⟩ := hx
  rw [toIntSat_of_finite hv, truncInt_of_toRat hval]

theorem natAbs_truncInt (v : BinaryValue) :
    v.truncInt.natAbs = v.mant * 2 ^ v.exp.toNat / 2 ^ (-v.exp).toNat := by
  unfold BinaryValue.truncInt
  split <;> simp only [Int.natAbs_mul, Int.natAbs_neg, Int.natAbs_one, Int.natAbs_natCast,
    Nat.one_mul]

/-- Whatever the number, its 64-bit conversion is the top of the range, which no binary64
number holds, or an integer that one holds exactly: a mantissa below `2^53` times a power of
two. -/
theorem toInt64_exact_or_top (x : Double) :
    x.toInt64 = 2 ^ 63 - 1 ∨
      ∃ m k : ℕ, m < 2 ^ 53 ∧ k ≤ 971 ∧ x.toInt64.natAbs = m * 2 ^ k := by
  have hbottom : ∃ m k : ℕ, m < 2 ^ 53 ∧ k ≤ 971 ∧ (-2 ^ 63 : ℤ).natAbs = m * 2 ^ k :=
    ⟨1, 63, by decide, by decide, by decide⟩
  unfold toInt64 toIntSat
  split
  · exact .inr ⟨0, 0, by decide, by decide, rfl⟩
  · split
    · exact .inr hbottom
    · exact .inl rfl
  · rename_i v hv
    obtain ⟨hm, -, hhi⟩ := BinaryFormat.decode_finite_bounds hv
    -- a truncation is the value itself at a non-negative exponent, and below the mantissa
    -- otherwise
    have ht : ∃ m k : ℕ, m < 2 ^ 53 ∧ k ≤ 971 ∧ v.truncInt.natAbs = m * 2 ^ k := by
      rw [natAbs_truncInt]
      by_cases he : 0 ≤ v.exp
      · refine ⟨v.mant, v.exp.toNat, hm, by omega, ?_⟩
        rw [Int.toNat_of_nonpos (by omega : -v.exp ≤ 0), pow_zero, Nat.div_one]
      · refine ⟨v.mant * 2 ^ v.exp.toNat / 2 ^ (-v.exp).toNat, 0, ?_, by omega, by simp⟩
        rw [Int.toNat_of_nonpos (by omega : v.exp ≤ 0), pow_zero, Nat.mul_one]
        exact lt_of_le_of_lt (Nat.div_le_self _ _) hm
    by_cases htop : 2 ^ 63 - 1 ≤ v.truncInt
    · exact .inl (by omega)
    · by_cases hbot : v.truncInt ≤ -2 ^ 63
      · rw [show max (-2 ^ 63 : ℤ) (min (2 ^ 63 - 1) v.truncInt) = -2 ^ 63 by omega]
        exact .inr hbottom
      · rw [show max (-2 ^ 63 : ℤ) (min (2 ^ 63 - 1) v.truncInt) = v.truncInt by omega]
        exact .inr ht

theorem ofNat_denotes_two_pow (r : ℕ) (hr : r ≤ 971) : (ofNat (2 ^ r)).Denotes (2 ^ r) := by
  have hrep : Representable ((2 ^ r : ℕ) : ℚ) :=
    ⟨1, r, by decide, by omega, by omega, by rw [Nat.cast_pow, Nat.cast_ofNat, abs_of_pos
      (by positivity), Nat.cast_one, one_mul, zpow_natCast]⟩
  have h := ofNat_denotes hrep
  rwa [Nat.cast_pow, Nat.cast_ofNat] at h

/-- An integer held exactly, divided by a power of two and multiplied back, rounds and converts
to itself in any range that holds it. -/
theorem toIntSat_round_div_mul {R : Double} {r : ℕ} (hR : R.Denotes (2 ^ r)) (hr : r ≤ 103)
    {n : ℤ} {m k : ℕ} (hm : m < 2 ^ 53) (hk : k ≤ 971) (hn : n.natAbs = m * 2 ^ k)
    {lo hi : ℤ} (hlo : lo ≤ n) (hhi : n ≤ hi) :
    (ofInt n / R * R).round.toIntSat lo hi = n := by
  have hpow : (2 : ℚ) ^ r ≠ 0 := by positivity
  have hquot := div_denotes (ofInt_denotes (representable_int hm hk hn)) hR hpow
    (representable_int_div hm hk hn r hr)
  have hback := mul_denotes hquot hR
    (by rw [div_mul_cancel₀ _ hpow]; exact representable_int hm hk hn)
  rw [div_mul_cancel₀ _ hpow] at hback
  rw [toIntSat_denotes_int (round_denotes_int hback)]
  omega

/-- A value on the grid of a power-of-two radix, `n / 2^r` with `n` held exactly and inside the
range, comes back from scaling, rounding, converting and scaling back. -/
theorem ofInt_toIntSat_div_of_grid {R x : Double} {r : ℕ} (hR : R.Denotes (2 ^ r)) (hr : r ≤ 103)
    {n : ℤ} {m k : ℕ} (hm : m < 2 ^ 53) (hk : k ≤ 971) (hn : n.natAbs = m * 2 ^ k)
    {lo hi : ℤ} (hlo : lo ≤ n) (hhi : n ≤ hi) (hx : x.Denotes (n / 2 ^ r)) :
    (ofInt ((x * R).round.toIntSat lo hi) / R).Denotes (n / 2 ^ r) := by
  have hpow : (2 : ℚ) ^ r ≠ 0 := by positivity
  have hscaled := mul_denotes hx hR
    (by rw [div_mul_cancel₀ _ hpow]; exact representable_int hm hk hn)
  rw [div_mul_cancel₀ _ hpow] at hscaled
  have hint : (x * R).round.toIntSat lo hi = n := by
    rw [toIntSat_denotes_int (round_denotes_int hscaled)]
    omega
  rw [hint]
  exact div_denotes (ofInt_denotes (representable_int hm hk hn)) hR hpow
    (representable_int_div hm hk hn r hr)

end SweptSpectrum.Double
