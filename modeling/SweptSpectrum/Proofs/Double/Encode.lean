import Mathlib
import SweptSpectrum.Double.Basic

/-!
# Exact values encode exactly

`BinaryFormat.encode` rounds a non-negative ratio to the nearest binary64 number. When the
ratio already is one, a mantissa below `2^53` times a power of two no smaller than the
subnormal step and below the overflow threshold, nothing is rounded: the encoding decodes back
to the ratio itself.

The search for the exponent (`scaleExponent`) is shown to find the exponent that puts the ratio
in `[2^52, 2^53)`; the division that follows is then exact, and packing and decoding undo each
other field by field.
-/

namespace SweptSpectrum.Decimal

/-- The value of a finite encoding as a rational number. -/
def BinaryValue.toRat (v : BinaryValue) : ℚ := (if v.neg then -1 else 1) * (v.mant * 2 ^ v.exp)

namespace BinaryFormat

/-- What `scaleExponent` looks for in an exponent `e`: the ratio scaled by `2^-e` lies in
`[2^p, 2^(p+1))`. -/
def Fits (num den p : ℕ) (e : ℤ) : Prop :=
  (2 : ℚ) ^ ((p : ℤ) + e) ≤ (num : ℚ) / den ∧ (num : ℚ) / den < 2 ^ ((p : ℤ) + e + 1)

/-- The test `scaleExponent` makes of a candidate exponent, in whole numbers, is `Fits`. -/
theorem fitsTest_iff {num den : ℕ} (p : ℕ) (hden : 0 < den) (e : ℤ) :
    (if e ≥ 0 then
        decide (2 ^ p * den * 2 ^ e.toNat ≤ num ∧ num < 2 ^ (p + 1) * den * 2 ^ e.toNat)
      else
        decide (2 ^ p * den ≤ num * 2 ^ (-e).toNat ∧ num * 2 ^ (-e).toNat < 2 ^ (p + 1) * den)) =
      true ↔ Fits num den p e := by
  have hd : (0 : ℚ) < den := by exact_mod_cast hden
  have h2 : (2 : ℚ) ≠ 0 := by norm_num
  unfold Fits
  split <;> rw [decide_eq_true_iff]
  · rename_i he
    obtain ⟨k, rfl⟩ := Int.eq_ofNat_of_zero_le he
    have hlo : (2 : ℚ) ^ ((p : ℤ) + k) = ((2 ^ p * 2 ^ k : ℕ) : ℚ) := by
      rw [zpow_add₀ h2, zpow_natCast, zpow_natCast]
      push_cast
      rfl
    have hhi : (2 : ℚ) ^ ((p : ℤ) + k + 1) = ((2 ^ (p + 1) * 2 ^ k : ℕ) : ℚ) := by
      rw [zpow_add₀ h2, zpow_add₀ h2, zpow_natCast, zpow_natCast, zpow_one]
      push_cast
      ring
    rw [Int.toNat_natCast, hlo, hhi, le_div_iff₀ hd, div_lt_iff₀ hd, Nat.mul_right_comm (2 ^ p),
      Nat.mul_right_comm (2 ^ (p + 1))]
    exact_mod_cast Iff.rfl
  · rename_i he
    obtain ⟨k, hk⟩ : ∃ k : ℕ, e = -(k : ℤ) := ⟨(-e).toNat, by omega⟩
    subst hk
    have hk2 : (0 : ℚ) < 2 ^ k := by positivity
    have hlo : (2 : ℚ) ^ ((p : ℤ) + -(k : ℤ)) = ((2 ^ p : ℕ) : ℚ) / ((2 ^ k : ℕ) : ℚ) := by
      rw [zpow_add₀ h2, zpow_neg, zpow_natCast, zpow_natCast]
      push_cast
      ring
    have hhi : (2 : ℚ) ^ ((p : ℤ) + -(k : ℤ) + 1) =
        ((2 ^ (p + 1) : ℕ) : ℚ) / ((2 ^ k : ℕ) : ℚ) := by
      rw [zpow_add₀ h2, zpow_add₀ h2, zpow_neg, zpow_natCast, zpow_natCast, zpow_one]
      push_cast
      ring
    have hk2' : (0 : ℚ) < ((2 ^ k : ℕ) : ℚ) := by exact_mod_cast hk2
    rw [neg_neg, Int.toNat_natCast, hlo, hhi, div_le_div_iff₀ hk2' hd, div_lt_div_iff₀ hd hk2']
    exact_mod_cast Iff.rfl

/-- The bit lengths of numerator and denominator place a positive ratio within a factor of
four. -/
theorem ratio_bounds {num den : ℕ} (hnum : 0 < num) (hden : 0 < den) :
    (2 : ℚ) ^ ((num.log2 : ℤ) - den.log2 - 1) ≤ (num : ℚ) / den ∧
      (num : ℚ) / den < 2 ^ ((num.log2 : ℤ) - den.log2 + 1) := by
  have h2 : (2 : ℚ) ≠ 0 := by norm_num
  have hd : (0 : ℚ) < den := by exact_mod_cast hden
  have hn1 : ((2 ^ num.log2 : ℕ) : ℚ) ≤ num := by exact_mod_cast Nat.log2_self_le (by omega)
  have hn2 : (num : ℚ) < ((2 ^ (num.log2 + 1) : ℕ) : ℚ) := by exact_mod_cast Nat.lt_log2_self
  have hd1 : ((2 ^ den.log2 : ℕ) : ℚ) ≤ den := by exact_mod_cast Nat.log2_self_le (by omega)
  have hd2 : (den : ℚ) < ((2 ^ (den.log2 + 1) : ℕ) : ℚ) := by exact_mod_cast Nat.lt_log2_self
  push_cast at hn1 hn2 hd1 hd2
  have hlo : (2 : ℚ) ^ ((num.log2 : ℤ) - den.log2 - 1) = 2 ^ num.log2 / 2 ^ (den.log2 + 1) := by
    rw [sub_sub, zpow_sub₀ h2, zpow_natCast, ← Nat.cast_succ, zpow_natCast]
  have hhi : (2 : ℚ) ^ ((num.log2 : ℤ) - den.log2 + 1) = 2 ^ (num.log2 + 1) / 2 ^ den.log2 := by
    rw [sub_add_eq_add_sub, zpow_sub₀ h2, ← Nat.cast_succ, zpow_natCast, zpow_natCast]
  rw [hlo, hhi]
  constructor
  · rw [div_le_div_iff₀ (by positivity) hd]
    nlinarith
  · rw [div_lt_div_iff₀ hd (by positivity)]
    nlinarith

/-- Of three candidates tried in order, the first that passes a test is returned: when the
test decides a property that one of the first two candidates has, the result has it. -/
theorem firstFit_spec (P : ℤ → Prop) (T : ℤ → Bool) (hT : ∀ e, T e = true ↔ P e) (est : ℤ)
    (hcover : P (est - 1) ∨ P est) :
    P (if T (est - 1) = true then est - 1 else if T est = true then est else est + 1) := by
  split
  · exact (hT _).mp ‹_›
  · rename_i hfirst
    split
    · exact (hT _).mp ‹_›
    · rename_i hsecond
      rcases hcover with h | h
      · exact absurd ((hT _).mpr h) hfirst
      · exact absurd ((hT _).mpr h) hsecond

/-- The exponent `scaleExponent` returns puts a positive ratio in `[2^p, 2^(p+1))`. -/
theorem scaleExponent_fits {num den : ℕ} (p : ℕ) (hnum : 0 < num) (hden : 0 < den) :
    Fits num den p (scaleExponent num den p) := by
  obtain ⟨hlo, hhi⟩ := ratio_bounds hnum hden
  -- below `2^(log num - log den)` the lower candidate fits, above it the upper one
  have hcover : Fits num den p ((num.log2 : ℤ) - den.log2 - p - 1) ∨
      Fits num den p ((num.log2 : ℤ) - den.log2 - p) := by
    unfold Fits
    have e1 : (p : ℤ) + ((num.log2 : ℤ) - den.log2 - p - 1) = (num.log2 : ℤ) - den.log2 - 1 := by
      ring
    have e2 : (p : ℤ) + ((num.log2 : ℤ) - den.log2 - p) = (num.log2 : ℤ) - den.log2 := by ring
    rw [e1, sub_add_cancel, e2]
    by_cases hmid : (num : ℚ) / den < 2 ^ ((num.log2 : ℤ) - den.log2)
    · exact .inl ⟨hlo, hmid⟩
    · exact .inr ⟨not_lt.mp hmid, hhi⟩
  unfold scaleExponent
  exact firstFit_spec _ _ (fitsTest_iff p hden) _ hcover

/-! ## Packing and decoding -/

@[simp] theorem double_minExp : double.minExp = -1074 := by decide
@[simp] theorem double_expMax : double.expMax = 2047 := by decide
@[simp] theorem double_fracBits : double.fracBits = 52 := rfl
@[simp] theorem double_expBits : double.expBits = 11 := rfl

/-- A mantissa below `2^53` at an exponent in range packs into a pattern below the sign bit that
decodes back to it: a normal number when the mantissa reaches `2^52`, a subnormal one at the
smallest exponent otherwise. -/
theorem decode_pack {q : ℕ} {e : ℤ} (hq : q < 2 ^ 53) (hlo : -1074 ≤ e) (hhi : e ≤ 971)
    (hsub : q < 2 ^ 52 → e = -1074) :
    double.pack q e < 2 ^ 63 ∧ ∃ gap, double.decode (double.pack q e) = .finite ⟨false, q, e, gap⟩ := by
  unfold pack decode
  rw [double_minExp, double_expMax, double_fracBits, double_expBits]
  dsimp only
  by_cases hsmall : q < 2 ^ 52
  · -- a subnormal: the fraction field alone, at the smallest exponent
    have he := hsub hsmall
    subst he
    have hfield : q / 2 ^ 52 % 2 ^ 11 = 0 := by rw [Nat.div_eq_of_lt hsmall, Nat.zero_mod]
    have hsign : q / 2 ^ (52 + 11) % 2 = 0 := by rw [Nat.div_eq_of_lt (by omega)]
    rw [if_pos hsmall, hfield, hsign, Nat.mod_eq_of_lt hsmall, if_neg (by decide), if_pos rfl]
    exact ⟨by omega, false, rfl⟩
  · -- a normal number: the biased exponent `F` above the fraction
    obtain ⟨F, hF⟩ : ∃ F : ℕ, e - -1074 + 1 = F := ⟨(e + 1075).toNat, by omega⟩
    have hnot : ¬ ((F : ℤ) ≥ ((2047 : ℕ) : ℤ)) := by omega
    rw [if_neg hsmall, hF, if_neg hnot, Int.toNat_natCast]
    have hfrac : (F * 2 ^ 52 + (q - 2 ^ 52)) % 2 ^ 52 = q - 2 ^ 52 := by omega
    have hfield : (F * 2 ^ 52 + (q - 2 ^ 52)) / 2 ^ 52 % 2 ^ 11 = F := by omega
    have hsign : (F * 2 ^ 52 + (q - 2 ^ 52)) / 2 ^ (52 + 11) % 2 = 0 := by omega
    have hmant : q - 2 ^ 52 + 2 ^ 52 = q := by omega
    have hexp : (F : ℤ) + -1074 - 1 = e := by omega
    rw [hfrac, hfield, hsign, if_neg (by omega), if_neg (by omega), hmant, hexp]
    exact ⟨by omega, _, rfl⟩

/-- A finite pattern's mantissa is below `2^53` and its exponent lies between the subnormal one
and `971`. -/
theorem decode_finite_bounds {bits : ℕ} {v : BinaryValue} (h : double.decode bits = .finite v) :
    v.mant < 2 ^ 53 ∧ -1074 ≤ v.exp ∧ v.exp ≤ 971 := by
  unfold decode at h
  rw [double_minExp, double_expMax, double_fracBits, double_expBits] at h
  dsimp only at h
  have hfrac : bits % 2 ^ 52 < 2 ^ 52 := Nat.mod_lt _ (by decide)
  have hfield : bits / 2 ^ 52 % 2 ^ 11 < 2 ^ 11 := Nat.mod_lt _ (by decide)
  split_ifs at h <;> cases h <;> dsimp only <;> omega

/-- Setting the sign bit of a pattern below it negates the value the pattern decodes to. -/
theorem decode_add_signBit {bits : ℕ} (hb : bits < 2 ^ 63) {v : BinaryValue}
    (h : double.decode bits = .finite v) :
    double.decode (bits + 2 ^ 63) = .finite { v with neg := true } := by
  unfold decode at h ⊢
  rw [double_minExp, double_expMax, double_fracBits, double_expBits] at h ⊢
  dsimp only at h ⊢
  have hfrac : (bits + 2 ^ 63) % 2 ^ 52 = bits % 2 ^ 52 := by omega
  have hfield : (bits + 2 ^ 63) / 2 ^ 52 % 2 ^ 11 = bits / 2 ^ 52 % 2 ^ 11 := by omega
  have hsign : (bits + 2 ^ 63) / 2 ^ (52 + 11) % 2 = 1 := by omega
  rw [hfrac, hfield, hsign]
  split_ifs at h ⊢ <;> cases h <;> rfl

/-- Flipping the low bit of a number flips the test of that bit. -/
theorem lowBit_xor_one (x : ℕ) : ((x ^^^ 1) % 2 == 1) = !(x % 2 == 1) := by
  have hxor := @Nat.xor_mod_two_eq_one x 1
  rcases Nat.mod_two_eq_zero_or_one x with h | h <;> simp [h] at hxor ⊢ <;> omega

/-- Flipping the sign bit of a pattern flips the sign of the value it decodes to. -/
theorem decode_xor_signBit {bits : ℕ} {v : BinaryValue} (h : double.decode bits = .finite v) :
    double.decode (bits ^^^ 2 ^ 63) = .finite { v with neg := !v.neg } := by
  unfold decode at h ⊢
  rw [double_minExp, double_expMax, double_fracBits, double_expBits] at h ⊢
  dsimp only at h ⊢
  have hfrac : (bits ^^^ 2 ^ 63) % 2 ^ 52 = bits % 2 ^ 52 := by
    rw [Nat.xor_mod_two_pow, show (2 : ℕ) ^ 63 % 2 ^ 52 = 0 by norm_num, Nat.xor_zero]
  have hfield : (bits ^^^ 2 ^ 63) / 2 ^ 52 % 2 ^ 11 = bits / 2 ^ 52 % 2 ^ 11 := by
    rw [Nat.xor_div_two_pow, Nat.xor_mod_two_pow, show (2 : ℕ) ^ 63 / 2 ^ 52 % 2 ^ 11 = 0 by norm_num,
      Nat.xor_zero]
  have hsign : ((bits ^^^ 2 ^ 63) / 2 ^ (52 + 11) % 2 == 1) = !(bits / 2 ^ (52 + 11) % 2 == 1) := by
    rw [Nat.xor_div_two_pow, show (2 : ℕ) ^ 63 / 2 ^ (52 + 11) = 1 by norm_num, lowBit_xor_one]
  rw [hfrac, hfield, hsign]
  split_ifs at h ⊢ <;> cases h <;> rfl

/-! ## Exact ratios -/

/-- When the ratio is a whole multiple `q` of `2^e`, the rounded division at exponent `e` is
exact. -/
theorem quotient_exact {num den q : ℕ} {e : ℤ} (hden : 0 < den)
    (hq : (num : ℚ) / den = q * 2 ^ e) :
    (if e ≥ 0 then divNearestEven num (den * 2 ^ e.toNat)
      else divNearestEven (num * 2 ^ (-e).toNat) den) = q := by
  have hd : (den : ℚ) ≠ 0 := by positivity
  rw [div_eq_iff hd] at hq
  split
  · rename_i he
    obtain ⟨k, rfl⟩ := Int.eq_ofNat_of_zero_le he
    have hnat : num = q * (den * 2 ^ k) := by
      rw [zpow_natCast] at hq
      exact_mod_cast (by rw [hq]; ring : (num : ℚ) = q * (den * 2 ^ k))
    rw [Int.toNat_natCast, hnat, divNearestEven_exact _ _ (by positivity)]
  · rename_i he
    obtain ⟨k, hk⟩ : ∃ k : ℕ, e = -(k : ℤ) := ⟨(-e).toNat, by omega⟩
    subst hk
    have hnat : num * 2 ^ k = q * den := by
      rw [zpow_neg, zpow_natCast] at hq
      have h2k : (2 : ℚ) ^ k ≠ 0 := by positivity
      exact_mod_cast (by rw [hq]; field_simp : (num : ℚ) * 2 ^ k = q * den)
    rw [neg_neg, Int.toNat_natCast, hnat, divNearestEven_exact _ _ hden]

/-- A ratio that is `m * 2^x` with `m < 2^53` and `x` no smaller than the subnormal exponent is a
whole multiple `q < 2^53` of `2^e`, where `e` is the exponent the encoder settles on; below
`2^52` only at the subnormal exponent. -/
theorem exists_mantissa {num den m : ℕ} {x e₀ : ℤ} (hfit : Fits num den 52 e₀)
    (hm : m < 2 ^ 53) (hlo : -1074 ≤ x) (hval : (num : ℚ) / den = m * 2 ^ x) :
    ∃ q : ℕ, (num : ℚ) / den = q * 2 ^ max e₀ (-1074) ∧ q < 2 ^ 53 ∧
      (q < 2 ^ 52 → max e₀ (-1074) = -1074) ∧ max e₀ (-1074) ≤ x := by
  have h2 : (2 : ℚ) ≠ 0 := two_ne_zero
  have h53 : (m : ℚ) * 2 ^ x < 2 ^ (53 + x) := by
    rw [zpow_add₀ h2]
    exact mul_lt_mul_of_pos_right (by exact_mod_cast hm) (zpow_pos two_pos x)
  -- the fit puts `2^(52+e₀)` below the ratio, so the exponent cannot pass `x`
  have hx : e₀ ≤ x := by
    have := lt_of_le_of_lt (hval ▸ hfit.1) h53
    rw [zpow_lt_zpow_iff_right₀ one_lt_two] at this
    omega
  set e := max e₀ (-1074) with he
  have hex : e ≤ x := max_le hx hlo
  have hpos : (0 : ℚ) < 2 ^ e := zpow_pos two_pos e
  have hq : (num : ℚ) / den = ((m * 2 ^ (x - e).toNat : ℕ) : ℚ) * 2 ^ e := by
    rw [hval]
    push_cast
    rw [← zpow_natCast, Int.toNat_of_nonneg (by omega), mul_assoc, ← zpow_add₀ h2, sub_add_cancel]
  refine ⟨_, hq, ?_, ?_, hex⟩
  · -- the fit bounds the ratio by `2^(53+e₀)`, no more than `2^53 * 2^e`
    have hup : (num : ℚ) / den < ((2 ^ 53 : ℕ) : ℚ) * 2 ^ e := by
      calc (num : ℚ) / den < 2 ^ (((52 : ℕ) : ℤ) + e₀ + 1) := hfit.2
        _ ≤ 2 ^ (((53 : ℕ) : ℤ) + e) := zpow_le_zpow_right₀ one_le_two (by omega)
        _ = ((2 ^ 53 : ℕ) : ℚ) * 2 ^ e := by rw [zpow_add₀ h2, zpow_natCast]; push_cast; rfl
    rw [hq, mul_lt_mul_iff_of_pos_right hpos] at hup
    exact_mod_cast hup
  · -- above the subnormal exponent the fit puts the ratio at `2^52 * 2^e` or more
    intro hsmall
    by_contra hne
    have he₀ : e = e₀ := (max_choice e₀ (-1074)).resolve_right hne
    have hdown : ((2 ^ 52 : ℕ) : ℚ) * 2 ^ e ≤ (num : ℚ) / den := by
      rw [he₀]
      calc ((2 ^ 52 : ℕ) : ℚ) * 2 ^ e₀ = 2 ^ (((52 : ℕ) : ℤ) + e₀) := by
            rw [zpow_add₀ h2, zpow_natCast]; push_cast; rfl
        _ ≤ (num : ℚ) / den := hfit.1
    rw [hq, mul_le_mul_iff_of_pos_right hpos] at hdown
    have : 2 ^ 52 ≤ m * 2 ^ (x - e).toNat := by exact_mod_cast hdown
    omega

/-- A ratio that a binary64 number holds exactly, `m * 2^x` with `m < 2^53` and `x` from the
subnormal exponent to the largest normal one, encodes to that number: the pattern stays below
the sign bit and decodes to a non-negative finite value equal to the ratio. -/
theorem encode_exact {num den m : ℕ} {x : ℤ} (hden : 0 < den) (hm : m < 2 ^ 53)
    (hlo : -1074 ≤ x) (hhi : x ≤ 971) (hval : (num : ℚ) / den = m * 2 ^ x) :
    double.encode num den < 2 ^ 63 ∧
      ∃ v, double.decode (double.encode num den) = .finite v ∧ v.neg = false ∧
        v.toRat = num / den := by
  by_cases hnum : num = 0
  · -- zero encodes as the positive zero
    subst hnum
    have h0 : double.encode 0 den = 0 := by simp [encode]
    rw [h0]
    exact ⟨by decide, ⟨false, 0, -1074, false⟩, rfl, rfl, by simp [BinaryValue.toRat]⟩
  obtain ⟨q, hq, hq53, hsub, hex⟩ :=
    exists_mantissa (scaleExponent_fits 52 (Nat.pos_of_ne_zero hnum) hden) hm hlo hval
  have hne : q ≠ 2 ^ (52 + 1) := by omega
  have henc : double.encode num den = double.pack q (max (scaleExponent num den 52) (-1074)) := by
    unfold encode
    rw [if_neg hnum]
    dsimp only
    rw [double_minExp, double_fracBits, quotient_exact hden hq, if_neg hne]
  obtain ⟨hlt, gap, hdec⟩ := decode_pack hq53 (le_max_right _ _) (by omega) hsub
  rw [henc]
  refine ⟨hlt, _, hdec, rfl, ?_⟩
  rw [hq]
  simp [BinaryValue.toRat]

/-! ## Rounded ratios -/

/-- The rounded division is within a half of the exact quotient. -/
theorem divNearestEven_near (a : ℕ) {b : ℕ} (hb : 0 < b) :
    |(divNearestEven a b : ℚ) - a / b| ≤ 1 / 2 := by
  -- in whole numbers: `divNearestEven a b * b` is within `b / 2` of `a` on either side
  have hwhole : 2 * (divNearestEven a b * b) ≤ 2 * a + b ∧ 2 * a ≤ 2 * (divNearestEven a b * b) + b := by
    have hdiv := Nat.div_add_mod a b
    have hmod := Nat.mod_lt a hb
    rw [Nat.mul_comm] at hdiv
    unfold divNearestEven
    dsimp only
    split_ifs <;> simp only [Nat.succ_mul] <;> omega
  have hb' : (0 : ℚ) < b := by exact_mod_cast hb
  have hlo : (2 : ℚ) * (divNearestEven a b * b) ≤ 2 * a + b := by exact_mod_cast hwhole.1
  have hhi : (2 : ℚ) * a ≤ 2 * (divNearestEven a b * b) + b := by exact_mod_cast hwhole.2
  rw [show (divNearestEven a b : ℚ) - a / b = (divNearestEven a b * b - a) / b by field_simp,
    abs_div, abs_of_pos hb', div_le_iff₀ hb', abs_le]
  constructor <;> linarith

/-- The division the encoder makes at exponent `e` is within a half of the ratio scaled by
`2^-e`. -/
theorem quotient_near (num : ℕ) {den : ℕ} (hden : 0 < den) (e : ℤ) :
    |(((if e ≥ 0 then divNearestEven num (den * 2 ^ e.toNat)
      else divNearestEven (num * 2 ^ (-e).toNat) den) : ℕ) : ℚ) - num / den / 2 ^ e| ≤ 1 / 2 := by
  split
  · rename_i he
    obtain ⟨k, rfl⟩ := Int.eq_ofNat_of_zero_le he
    have h := divNearestEven_near num (Nat.mul_pos hden (Nat.two_pow_pos k))
    rw [Nat.cast_mul, Nat.cast_pow, Nat.cast_ofNat, ← div_div] at h
    rwa [Int.toNat_natCast, zpow_natCast]
  · rename_i he
    obtain ⟨k, hk⟩ : ∃ k : ℕ, e = -(k : ℤ) := ⟨(-e).toNat, by omega⟩
    subst hk
    have h := divNearestEven_near (num * 2 ^ k) hden
    rw [Nat.cast_mul, Nat.cast_pow, Nat.cast_ofNat, mul_div_right_comm] at h
    rwa [neg_neg, Int.toNat_natCast, zpow_neg, zpow_natCast, div_inv_eq_mul]

/-- A ratio in the normal range, from `2^-1022` to below `2^1023`, encodes to a finite
non-negative number within a relative `2^-53` of it: half a unit in the last place. -/
theorem encode_near {num den : ℕ} (hden : 0 < den) (hlo : (2 : ℚ) ^ (-1022 : ℤ) ≤ num / den)
    (hhi : (num : ℚ) / den < 2 ^ (1023 : ℤ)) :
    double.encode num den < 2 ^ 63 ∧
      ∃ v, double.decode (double.encode num den) = .finite v ∧ v.neg = false ∧
        |v.toRat - num / den| ≤ num / den / 2 ^ 53 := by
  have h2 : (2 : ℚ) ≠ 0 := two_ne_zero
  have hnum : num ≠ 0 := by
    rintro rfl
    have : (0 : ℚ) < 2 ^ (-1022 : ℤ) := zpow_pos two_pos _
    rw [Nat.cast_zero, zero_div] at hlo
    linarith
  have hfit := scaleExponent_fits 52 (Nat.pos_of_ne_zero hnum) hden
  set e := scaleExponent num den 52 with he
  -- a normal ratio puts the exponent above the subnormal one and below the top
  have helo : -1074 ≤ e := by
    have := lt_of_le_of_lt hlo hfit.2
    rw [zpow_lt_zpow_iff_right₀ one_lt_two] at this
    omega
  have hehi : e ≤ 970 := by
    have := lt_of_le_of_lt hfit.1 hhi
    rw [zpow_lt_zpow_iff_right₀ one_lt_two] at this
    omega
  have hpos : (0 : ℚ) < 2 ^ e := zpow_pos two_pos e
  -- the ratio scaled by `2^-e` lies in `[2^52, 2^53)`, and the division is within a half of it
  have hscaled : (2 : ℚ) ^ 52 ≤ num / den / 2 ^ e ∧ (num : ℚ) / den / 2 ^ e < 2 ^ 53 := by
    have h1 := hfit.1
    have h2' := hfit.2
    rw [zpow_add₀ h2, zpow_natCast] at h1
    rw [zpow_add₀ h2, zpow_add₀ h2, zpow_natCast, zpow_one, mul_right_comm,
      show (2 : ℚ) ^ 52 * 2 = 2 ^ 53 by norm_num] at h2'
    exact ⟨(le_div_iff₀ hpos).mpr h1, (div_lt_iff₀ hpos).mpr h2'⟩
  have hnear := quotient_near num hden e
  set Q := if e ≥ 0 then divNearestEven num (den * 2 ^ e.toNat)
    else divNearestEven (num * 2 ^ (-e).toNat) den with hQ
  rw [abs_le] at hnear
  have hQlo : 2 ^ 52 ≤ Q := by
    by_contra hlt
    have : (Q : ℚ) + 1 ≤ 2 ^ 52 := by exact_mod_cast Nat.not_le.mp hlt
    linarith
  have hQhi : Q ≤ 2 ^ 53 := by
    by_contra hlt
    have : (2 : ℚ) ^ 53 + 1 ≤ Q := by exact_mod_cast Nat.not_le.mp hlt
    linarith
  -- the encoding is `Q * 2^e`, packed as `2^52 * 2^(e+1)` when the rounding carried to `2^53`
  have henc : double.encode num den =
      if Q = 2 ^ (52 + 1) then double.pack (2 ^ 52) (e + 1) else double.pack Q e := by
    unfold encode
    rw [if_neg hnum]
    dsimp only
    rw [double_minExp, double_fracBits, max_eq_left helo]
  have hvalue : ∃ M E gap, double.encode num den = double.pack M E ∧
      double.decode (double.pack M E) = .finite ⟨false, M, E, gap⟩ ∧ double.pack M E < 2 ^ 63 ∧
      (M : ℚ) * 2 ^ E = Q * 2 ^ e := by
    by_cases hcarry : Q = 2 ^ (52 + 1)
    · obtain ⟨hlt, gap, hdec⟩ := decode_pack (by norm_num : (2 : ℕ) ^ 52 < 2 ^ 53)
        (by omega : -1074 ≤ e + 1) (by omega) (by norm_num)
      refine ⟨2 ^ 52, e + 1, gap, by rw [henc, if_pos hcarry], hdec, hlt, ?_⟩
      rw [hcarry, zpow_add_one₀ h2]
      push_cast
      ring
    · obtain ⟨hlt, gap, hdec⟩ := decode_pack (by omega : Q < 2 ^ 53) helo (by omega)
        (fun hsmall => absurd hQlo (Nat.not_le.mpr hsmall))
      exact ⟨Q, e, gap, by rw [henc, if_neg hcarry], hdec, hlt, rfl⟩
  obtain ⟨M, E, gap, henc', hdec, hlt, hME⟩ := hvalue
  rw [henc']
  refine ⟨hlt, _, hdec, rfl, ?_⟩
  -- the error is `2^e` times the distance of `Q` from the scaled ratio
  have herr : (M : ℚ) * 2 ^ E - num / den = (Q - num / den / 2 ^ e) * 2 ^ e := by
    rw [hME, sub_mul, div_mul_cancel₀ _ hpos.ne']
  have hhalf : 2 ^ e / 2 ≤ (num : ℚ) / den / 2 ^ 53 := by
    rw [div_le_div_iff₀ two_pos (by norm_num)]
    nlinarith [hscaled.1]
  rw [BinaryValue.toRat, if_neg Bool.false_ne_true, one_mul, herr, abs_mul, abs_of_pos hpos]
  calc |(Q : ℚ) - num / den / 2 ^ e| * 2 ^ e ≤ 1 / 2 * 2 ^ e :=
        mul_le_mul_of_nonneg_right (abs_le.mpr hnear) hpos.le
    _ = 2 ^ e / 2 := by ring
    _ ≤ (num : ℚ) / den / 2 ^ 53 := hhalf

end BinaryFormat

end SweptSpectrum.Decimal
