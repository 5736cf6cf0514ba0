import Mathlib
import SweptSpectrum.Proofs.Double.Exact

/-!
# Rounding is monotone

Rounding to the nearest binary64 number never reverses the order of two non-negative ratios.

The encoding of a positive ratio is read as one number: the rounded quotient at the encoder's
exponent plus that exponent's binade above the subnormals times `2^52`, capped at the pattern of
infinity (`encode_eq_min`). The exponent search and the rounded division are both monotone in
the ratio, and a quotient never passes `2^53` while one above the subnormal exponent never
falls below `2^52`, so a larger ratio gives a larger pattern (`encode_mono`). Below infinity a
larger non-negative pattern decodes to a larger value.

Numbers are compared through `Double.rank`, their place among the extended rationals; `<` and
`≤` are the order of ranks once a not-a-number is left out (`lt_iff_rank`). A product or a
quotient of non-negative numbers ranks where its exact value rounds to (`mul_rank`, `div_rank`),
so both grow with each operand, overflow to infinity included (`ofNat_mul_le`,
`div_le_div_of_rank_le`); a sum of numbers not below zero is not below zero
(`add_not_lt_zero`).
-/

namespace SweptSpectrum.Decimal.BinaryFormat

/-! ## The rounded division -/

/-- Of two ratios with `a / b ≤ c / d`, the whole parts are ordered, and when they are equal the
remainders are too. -/
theorem div_mod_le_of_mul_le {a b c d : ℕ} (hb : 0 < b) (hd : 0 < d) (h : a * d ≤ c * b) :
    a / b < c / d ∨ (a / b = c / d ∧ a % b * d ≤ c % d * b) := by
  have ha := Nat.div_add_mod a b
  have hc := Nat.div_add_mod c d
  have hra := Nat.mod_lt a hb
  have hrc := Nat.mod_lt c hd
  rcases lt_trichotomy (a / b) (c / d) with hlt | heq | hgt
  · exact .inl hlt
  · refine .inr ⟨heq, ?_⟩
    rw [← ha, ← hc, heq] at h
    nlinarith
  · -- a whole part one higher already puts `a * d` past `c * b`
    exfalso
    rw [← ha, ← hc] at h
    have hstep : b * (c / d + 1) * d ≤ b * (a / b) * d :=
      Nat.mul_le_mul_right d (Nat.mul_le_mul_left b hgt)
    have hrem : c % d * b < d * b := Nat.mul_lt_mul_of_pos_right hrc hb
    nlinarith [Nat.zero_le (a % b * d)]

/-- Rounding to nearest, ties to even, is monotone: a smaller ratio never rounds higher. -/
theorem divNearestEven_mono {a b c d : ℕ} (hb : 0 < b) (hd : 0 < d) (h : a * d ≤ c * b) :
    divNearestEven a b ≤ divNearestEven c d := by
  have hup : divNearestEven a b ≤ a / b + 1 := by
    unfold divNearestEven
    dsimp only
    split_ifs <;> omega
  have hdown : c / d ≤ divNearestEven c d := by
    unfold divNearestEven
    dsimp only
    split_ifs <;> omega
  rcases div_mod_le_of_mul_le hb hd h with hlt | ⟨heq, hrem⟩
  · omega
  · -- equal whole parts: the remainder of `c / d` is at least as far past the half
    have hpast : b < 2 * (a % b) → d < 2 * (c % d) := fun h' => by nlinarith
    have hhalf : b = 2 * (a % b) → d ≤ 2 * (c % d) := fun h' => by nlinarith
    unfold divNearestEven
    dsimp only
    rw [heq]
    split_ifs <;> omega

/-! ## The exponent and the quotient -/

/-- Fitting exponents are ordered as the ratios they fit. -/
theorem Fits.exp_le {n₁ d₁ n₂ d₂ p : ℕ} {e₁ e₂ : ℤ} (h₁ : Fits n₁ d₁ p e₁) (h₂ : Fits n₂ d₂ p e₂)
    (hle : (n₁ : ℚ) / d₁ ≤ n₂ / d₂) : e₁ ≤ e₂ := by
  have hlt := lt_of_le_of_lt (h₁.1.trans hle) h₂.2
  rw [zpow_lt_zpow_iff_right₀ one_lt_two] at hlt
  omega

/-- The exponent the encoder settles on: the one that fits the ratio in `[2^52, 2^53)`, or the
subnormal one if that is higher. -/
def encodeExp (num den : ℕ) : ℤ := max (scaleExponent num den 52) (-1074)

/-- The division the encoder makes at exponent `e`: the ratio scaled by `2^-e`, rounded. -/
def quotientAt (num den : ℕ) (e : ℤ) : ℕ :=
  if e ≥ 0 then divNearestEven num (den * 2 ^ e.toNat) else divNearestEven (num * 2 ^ (-e).toNat) den

theorem encodeExp_mono {n₁ d₁ n₂ d₂ : ℕ} (hn₁ : 0 < n₁) (hd₁ : 0 < d₁) (hn₂ : 0 < n₂)
    (hd₂ : 0 < d₂) (hle : (n₁ : ℚ) / d₁ ≤ n₂ / d₂) : encodeExp n₁ d₁ ≤ encodeExp n₂ d₂ :=
  max_le_max ((scaleExponent_fits 52 hn₁ hd₁).exp_le (scaleExponent_fits 52 hn₂ hd₂) hle) le_rfl

theorem quotientAt_mono {n₁ d₁ n₂ d₂ : ℕ} (hd₁ : 0 < d₁) (hd₂ : 0 < d₂) (h : n₁ * d₂ ≤ n₂ * d₁)
    (e : ℤ) : quotientAt n₁ d₁ e ≤ quotientAt n₂ d₂ e := by
  unfold quotientAt
  split
  · apply divNearestEven_mono (by positivity) (by positivity)
    calc n₁ * (d₂ * 2 ^ e.toNat) = n₁ * d₂ * 2 ^ e.toNat := by ring
      _ ≤ n₂ * d₁ * 2 ^ e.toNat := Nat.mul_le_mul_right _ h
      _ = n₂ * (d₁ * 2 ^ e.toNat) := by ring
  · apply divNearestEven_mono hd₁ hd₂
    calc n₁ * 2 ^ (-e).toNat * d₂ = n₁ * d₂ * 2 ^ (-e).toNat := by ring
      _ ≤ n₂ * d₁ * 2 ^ (-e).toNat := Nat.mul_le_mul_right _ h
      _ = n₂ * 2 ^ (-e).toNat * d₁ := by ring

/-- At the encoder's exponent a positive ratio gives a quotient of at most `2^53`, and of at
least `2^52` unless the exponent is the subnormal one. -/
theorem quotientAt_encodeExp_bounds {num den : ℕ} (hnum : 0 < num) (hden : 0 < den) :
    quotientAt num den (encodeExp num den) ≤ 2 ^ 53 ∧
      (encodeExp num den = -1074 ∨ 2 ^ 52 ≤ quotientAt num den (encodeExp num den)) := by
  have hfit := scaleExponent_fits 52 hnum hden
  have hnear := quotient_near num hden (encodeExp num den)
  rw [abs_le] at hnear
  have hpos : (0 : ℚ) < 2 ^ encodeExp num den := zpow_pos two_pos _
  have hse : scaleExponent num den 52 ≤ encodeExp num den := le_max_left _ _
  -- the ratio scaled by `2^-e` stays below `2^53`
  have hhi : (num : ℚ) / den / 2 ^ encodeExp num den < 2 ^ 53 := by
    rw [div_lt_iff₀ hpos]
    calc (num : ℚ) / den < 2 ^ (((52 : ℕ) : ℤ) + scaleExponent num den 52 + 1) := hfit.2
      _ ≤ 2 ^ ((53 : ℤ) + encodeExp num den) := zpow_le_zpow_right₀ one_le_two (by omega)
      _ = 2 ^ 53 * 2 ^ encodeExp num den := by rw [zpow_add₀ two_ne_zero]; norm_num
  constructor
  · have hq : (quotientAt num den (encodeExp num den) : ℚ) < 2 ^ 53 + 1 := by
      unfold quotientAt
      linarith
    have : quotientAt num den (encodeExp num den) < 2 ^ 53 + 1 := by exact_mod_cast hq
    omega
  · by_cases hsub : encodeExp num den = -1074
    · exact .inl hsub
    -- above the subnormal exponent the fit puts the scaled ratio at `2^52` or more
    have he : encodeExp num den = scaleExponent num den 52 :=
      (max_choice (scaleExponent num den 52) (-1074)).resolve_right hsub
    have hlo : 2 ^ 52 ≤ (num : ℚ) / den / 2 ^ encodeExp num den := by
      rw [le_div_iff₀ hpos, he, ← zpow_natCast, ← zpow_add₀ two_ne_zero]
      exact hfit.1
    have hq : (2 : ℚ) ^ 52 < quotientAt num den (encodeExp num den) + 1 := by
      unfold quotientAt
      linarith
    have : 2 ^ 52 < quotientAt num den (encodeExp num den) + 1 := by exact_mod_cast hq
    exact .inr (by omega)

/-! ## The encoding as one number -/

/-- The encoding of a positive ratio read as one number: the quotient at the encoder's exponent
plus that exponent's binade above the subnormals times `2^52`, capped at the pattern of
infinity. A quotient that carried to `2^53` lands on the next binade. -/
theorem encode_eq_min {num den : ℕ} (hnum : 0 < num) (hden : 0 < den) :
    double.encode num den =
      min (quotientAt num den (encodeExp num den) + (encodeExp num den + 1074).toNat * 2 ^ 52)
        (2047 * 2 ^ 52) := by
  obtain ⟨hq, hsub⟩ := quotientAt_encodeExp_bounds hnum hden
  have hlo : -1074 ≤ encodeExp num den := le_max_right _ _
  have henc : double.encode num den =
      if quotientAt num den (encodeExp num den) = 2 ^ 53 then
        double.pack (2 ^ 52) (encodeExp num den + 1)
      else double.pack (quotientAt num den (encodeExp num den)) (encodeExp num den) := by
    unfold encode
    rw [if_neg hnum.ne']
    dsimp only
    rw [double_minExp, double_fracBits]
    rfl
  rw [henc]
  generalize quotientAt num den (encodeExp num den) = q at hq hsub ⊢
  generalize encodeExp num den = e at hlo hsub ⊢
  unfold pack
  rw [double_minExp, double_expMax, double_fracBits]
  dsimp only
  split_ifs <;> omega

/-- The capped pattern grows with the quotient at one exponent, and from one exponent to a higher
one whose quotient is at least `2^52`: a binade starts above every quotient of the one below. -/
theorem capped_le {q₁ q₂ : ℕ} {e₁ e₂ : ℤ} (hq₁ : q₁ ≤ 2 ^ 53) (hlo : -1074 ≤ e₁)
    (h : e₁ < e₂ ∧ 2 ^ 52 ≤ q₂ ∨ e₁ = e₂ ∧ q₁ ≤ q₂) :
    min (q₁ + (e₁ + 1074).toNat * 2 ^ 52) (2047 * 2 ^ 52) ≤
      min (q₂ + (e₂ + 1074).toNat * 2 ^ 52) (2047 * 2 ^ 52) := by
  omega

/-- A larger ratio encodes to a larger pattern. -/
theorem encode_mono {n₁ d₁ n₂ d₂ : ℕ} (hd₁ : 0 < d₁) (hd₂ : 0 < d₂) (h : n₁ * d₂ ≤ n₂ * d₁) :
    double.encode n₁ d₁ ≤ double.encode n₂ d₂ := by
  rcases Nat.eq_zero_or_pos n₁ with rfl | hn₁
  · simp [encode]
  have hn₂ : 0 < n₂ := by
    rcases Nat.eq_zero_or_pos n₂ with rfl | hpos
    · have : 0 < n₁ * d₂ := Nat.mul_pos hn₁ hd₂
      omega
    · exact hpos
  have hle : (n₁ : ℚ) / d₁ ≤ n₂ / d₂ := by
    rw [div_le_div_iff₀ (by exact_mod_cast hd₁) (by exact_mod_cast hd₂)]
    exact_mod_cast h
  have hexp := encodeExp_mono hn₁ hd₁ hn₂ hd₂ hle
  obtain ⟨hq₁, -⟩ := quotientAt_encodeExp_bounds hn₁ hd₁
  obtain ⟨-, hsub₂⟩ := quotientAt_encodeExp_bounds hn₂ hd₂
  have hlo₁ : -1074 ≤ encodeExp n₁ d₁ := le_max_right _ _
  rw [encode_eq_min hn₁ hd₁, encode_eq_min hn₂ hd₂]
  apply capped_le hq₁ hlo₁
  -- a higher exponent is not the subnormal one, so its quotient is at least `2^52`
  rcases hexp.lt_or_eq with hlt | heq
  · exact .inl ⟨hlt, hsub₂.resolve_left (lt_of_le_of_lt hlo₁ hlt).ne'⟩
  · refine .inr ⟨heq, ?_⟩
    rw [← heq]
    exact quotientAt_mono hd₁ hd₂ h _

/-- An encoding never passes the pattern of infinity. -/
theorem encode_le_inf (num : ℕ) {den : ℕ} (hden : 0 < den) : double.encode num den ≤ 2047 * 2 ^ 52 := by
  rcases Nat.eq_zero_or_pos num with rfl | hnum
  · simp [encode]
  · rw [encode_eq_min hnum hden]
    exact min_le_right _ _

/-! ## Decoding non-negative patterns -/

/-- The value, in steps of `2^-1074`, of a pattern with the sign bit clear below infinity: a
subnormal is its own pattern; a normal number is its fraction with the hidden bit, shifted by
its binade. -/
def patternSteps (b : ℕ) : ℕ :=
  if b < 2 ^ 52 then b else (b % 2 ^ 52 + 2 ^ 52) * 2 ^ (b / 2 ^ 52 - 1)

/-- A larger pattern has at least as many steps: within a binade the fraction grows, and a
binade starts where the one below ends. -/
theorem patternSteps_mono {b₁ b₂ : ℕ} (h : b₁ ≤ b₂) : patternSteps b₁ ≤ patternSteps b₂ := by
  unfold patternSteps
  split_ifs with h₁ h₂ h₂
  · exact h
  · calc b₁ ≤ b₂ % 2 ^ 52 + 2 ^ 52 := by omega
      _ ≤ _ := Nat.le_mul_of_pos_right _ (Nat.two_pow_pos _)
  · omega
  · rcases (Nat.div_le_div_right h : b₁ / 2 ^ 52 ≤ b₂ / 2 ^ 52).lt_or_eq with hlt | heq
    · calc (b₁ % 2 ^ 52 + 2 ^ 52) * 2 ^ (b₁ / 2 ^ 52 - 1)
          ≤ 2 ^ 53 * 2 ^ (b₁ / 2 ^ 52 - 1) := Nat.mul_le_mul_right _ (by omega)
        _ = 2 ^ 52 * 2 ^ (b₁ / 2 ^ 52 - 1 + 1) := by ring
        _ ≤ 2 ^ 52 * 2 ^ (b₂ / 2 ^ 52 - 1) :=
          Nat.mul_le_mul_left _ (Nat.pow_le_pow_right (by norm_num) (by omega))
        _ ≤ (b₂ % 2 ^ 52 + 2 ^ 52) * 2 ^ (b₂ / 2 ^ 52 - 1) := Nat.mul_le_mul_right _ (by omega)
    · rw [heq]
      exact Nat.mul_le_mul_right _ (by omega)

/-- A pattern with the sign bit clear decodes below infinity to a non-negative finite value of
`patternSteps` steps, and at infinity to plus infinity. -/
theorem decode_of_le_inf {b : ℕ} (hb : b ≤ 2047 * 2 ^ 52) :
    (b < 2047 * 2 ^ 52 ∧ ∃ v, double.decode b = .finite v ∧ v.neg = false ∧
      v.scaled = patternSteps b) ∨ (b = 2047 * 2 ^ 52 ∧ double.decode b = .infinite false) := by
  rcases hb.lt_or_eq with hlt | rfl
  · refine .inl ⟨hlt, ?_⟩
    unfold decode
    rw [double_minExp, double_expMax, double_fracBits, double_expBits]
    dsimp only
    have hfield : b / 2 ^ 52 % 2 ^ 11 = b / 2 ^ 52 := Nat.mod_eq_of_lt (by omega)
    have hsign : b / 2 ^ (52 + 11) % 2 = 0 := by
      rw [Nat.div_eq_of_lt (by omega)]
    rw [hfield, hsign, if_neg (by omega)]
    split
    · -- a subnormal: the pattern is the mantissa
      rename_i h0
      have hsmall : b < 2 ^ 52 := by omega
      refine ⟨_, rfl, rfl, ?_⟩
      rw [patternSteps, if_pos hsmall]
      simp only [BinaryValue.scaled, Nat.mod_eq_of_lt hsmall]
      simp
    · rename_i h0
      have hbig : ¬ b < 2 ^ 52 := by omega
      refine ⟨_, rfl, rfl, ?_⟩
      have hexp : ((b / 2 ^ 52 : ℕ) + -1074 - 1 + 1074 : ℤ).toNat = b / 2 ^ 52 - 1 := by omega
      simp only [BinaryValue.scaled, patternSteps, if_neg hbig, hexp]
      simp
  · exact .inr ⟨rfl, by decide⟩

end SweptSpectrum.Decimal.BinaryFormat

namespace SweptSpectrum.Double

open Decimal BinaryFormat

/-! ## Ranks -/

/-- Where a number stands among the extended rationals, in steps of `2^-1074`: minus infinity at
the bottom, plus infinity at the top, a finite value at its whole number of steps. A
not-a-number is put at zero; it compares with nothing, and the order lemmas leave it out. -/
def rank (x : Double) : WithBot (WithTop ℤ) :=
  match x.classify with
  | .nan => 0
  | .infinite neg => if neg then ⊥ else ⊤
  | .finite v => ((v.scaled : WithTop ℤ) : WithBot (WithTop ℤ))

theorem rank_of_finite {x : Double} {v : BinaryValue} (hv : x.classify = .finite v) :
    x.rank = ((v.scaled : WithTop ℤ) : WithBot (WithTop ℤ)) := by
  unfold rank
  rw [hv]

theorem rank_of_infinite {x : Double} {neg : Bool} (hx : x.classify = .infinite neg) :
    x.rank = if neg then ⊥ else ⊤ := by
  unfold rank
  rw [hx]

theorem lt_iff_rank {x y : Double} (hx : x.isNaN = false) (hy : y.isNaN = false) :
    x < y ↔ x.rank < y.rank := by
  show lt x y = true ↔ _
  unfold lt rank
  unfold isNaN at hx hy
  generalize x.classify = cx at hx ⊢
  generalize y.classify = cy at hy ⊢
  have htop : ∀ k : ℤ, ((k : WithTop ℤ) : WithBot (WithTop ℤ)) < ⊤ := fun k =>
    WithBot.coe_lt_coe.mpr (WithTop.coe_lt_top k)
  rcases cx with _ | ⟨_ | _⟩ | u <;> rcases cy with _ | ⟨_ | _⟩ | w <;> simp_all

theorem le_iff_rank {x y : Double} (hx : x.isNaN = false) (hy : y.isNaN = false) :
    x ≤ y ↔ x.rank ≤ y.rank := by
  show le x y = true ↔ _
  unfold le rank
  unfold isNaN at hx hy
  generalize x.classify = cx at hx ⊢
  generalize y.classify = cy at hy ⊢
  rcases cx with _ | ⟨_ | _⟩ | u <;> rcases cy with _ | ⟨_ | _⟩ | w <;> simp_all

theorem isNaN_of_lt {x y : Double} (h : x < y) : x.isNaN = false ∧ y.isNaN = false := by
  revert h
  show lt x y = true → _
  unfold lt isNaN
  rcases x.classify with _ | _ | _ <;> rcases y.classify with _ | _ | _ <;> simp

theorem isNaN_of_le {x y : Double} (h : x ≤ y) : x.isNaN = false ∧ y.isNaN = false := by
  revert h
  show le x y = true → _
  unfold le isNaN
  rcases x.classify with _ | _ | _ <;> rcases y.classify with _ | _ | _ <;> simp

theorem lt_of_lt_le {x y z : Double} (h₁ : x < y) (h₂ : y ≤ z) : x < z := by
  obtain ⟨hx, hy⟩ := isNaN_of_lt h₁
  obtain ⟨-, hz⟩ := isNaN_of_le h₂
  rw [lt_iff_rank hx hy] at h₁
  rw [le_iff_rank hy hz] at h₂
  exact (lt_iff_rank hx hz).mpr (h₁.trans_le h₂)

theorem classify_zero : (0 : Double).classify = .finite ⟨false, 0, -1074, false⟩ := by decide

theorem denotes_zero : (0 : Double).Denotes 0 := ⟨_, classify_zero, by simp [BinaryValue.toRat]⟩

/-- Below zero are exactly the numbers ranked below zero; a not-a-number is not. -/
theorem lt_zero_iff (x : Double) : x < 0 ↔ x.rank < 0 := by
  show lt x 0 = true ↔ _
  unfold lt rank
  rw [classify_zero]
  generalize x.classify = cx
  rcases cx with _ | ⟨_ | _⟩ | u <;> simp [BinaryValue.scaled]

/-- Finite numbers rank as their values. -/
theorem rank_le_iff {x y : Double} {a b : ℚ} (hx : x.Denotes a) (hy : y.Denotes b) :
    x.rank ≤ y.rank ↔ a ≤ b := by
  obtain ⟨u, hu, rfl⟩ := hx
  obtain ⟨w, hw, rfl⟩ := hy
  rw [rank_of_finite hu, rank_of_finite hw, WithBot.coe_le_coe, WithTop.coe_le_coe,
    ← @Int.cast_le ℚ, scaled_eq hu, scaled_eq hw]
  exact mul_le_mul_iff_of_pos_right (by positivity)

theorem rank_lt_iff {x y : Double} {a b : ℚ} (hx : x.Denotes a) (hy : y.Denotes b) :
    x.rank < y.rank ↔ a < b := by
  rw [← not_le, ← not_le, rank_le_iff hy hx]

theorem denotes_of_isFinite {x : Double} (h : x.isFinite = true) : ∃ a, x.Denotes a := by
  unfold isFinite at h
  split at h
  · exact ⟨_, _, ‹_›, rfl⟩
  · cases h

/-- A number above zero and at most a finite number is finite and positive. -/
theorem denotes_pos_of_lt_of_le {x y : Double} {b : ℚ} (h₀ : 0 < x) (h : x ≤ y)
    (hy : y.Denotes b) : ∃ a, x.Denotes a ∧ 0 < a := by
  obtain ⟨-, hx⟩ := isNaN_of_lt h₀
  rw [lt_iff_rank (isNaN_of_lt h₀).1 hx] at h₀
  rw [le_iff_rank hx (isNaN_of_le h).2] at h
  obtain ⟨w, hw, rfl⟩ := hy
  rcases hc : x.classify with _ | ⟨_ | _⟩ | v
  · simp [isNaN, hc] at hx
  · -- plus infinity is above every finite number
    rw [rank_of_infinite hc, rank_of_finite hw, if_neg Bool.false_ne_true] at h
    exact absurd h (not_le.mpr (WithBot.coe_lt_coe.mpr (WithTop.coe_lt_top _)))
  · rw [rank_of_infinite hc, if_pos rfl] at h₀
    exact absurd h₀ not_lt_bot
  · exact ⟨v.toRat, ⟨v, hc, rfl⟩, (rank_lt_iff denotes_zero ⟨v, hc, rfl⟩).mp h₀⟩

/-- A finite number at least zero has a value at least zero. -/
theorem nonneg_of_le {x : Double} {a : ℚ} (hx : x.Denotes a) (h : 0 ≤ x) : 0 ≤ a :=
  (rank_le_iff denotes_zero hx).mp ((le_iff_rank (isNaN_of_le h).1 (isNaN_of_le h).2).mp h)

/-! ## Rounding to a rank -/

/-- The bits of a rounding with the sign clear are the encoder's pattern. -/
theorem ofRatio_false_bits (num den : ℕ) (hden : 0 < den) :
    (ofRatio false num den).bits.toNat = double.encode num den := by
  have hle := encode_le_inf num hden
  have hsize : UInt64.size = 2 ^ 64 := rfl
  exact UInt64.toNat_ofNat_of_lt' (by rw [if_neg Bool.false_ne_true, Nat.add_zero]; omega)

/-- The rank of a pattern with the sign bit clear, up to that of plus infinity. -/
theorem rank_of_pattern {x : Double} (hx : x.bits.toNat ≤ 2047 * 2 ^ 52) :
    x.rank = if x.bits.toNat < 2047 * 2 ^ 52 then
      (((patternSteps x.bits.toNat : ℤ) : WithTop ℤ) : WithBot (WithTop ℤ)) else ⊤ := by
  rcases decode_of_le_inf hx with ⟨hlt, v, hdec, -, hsteps⟩ | ⟨heq, hdec⟩
  · rw [if_pos hlt, rank_of_finite hdec, hsteps]
  · rw [if_neg (by omega)]
    unfold rank classify
    rw [hdec]
    rfl

theorem isNaN_of_pattern {x : Double} (hx : x.bits.toNat ≤ 2047 * 2 ^ 52) : x.isNaN = false := by
  unfold isNaN classify
  rcases decode_of_le_inf hx with ⟨-, v, hdec, -⟩ | ⟨-, hdec⟩ <;> rw [hdec]

theorem isNaN_ofRatio_false (num : ℕ) {den : ℕ} (hden : 0 < den) :
    (ofRatio false num den).isNaN = false :=
  isNaN_of_pattern ((ofRatio_false_bits num den hden).trans_le (encode_le_inf num hden))

/-- Rounding with the sign clear is monotone in the ratio. -/
theorem rank_ofRatio_mono {n₁ d₁ n₂ d₂ : ℕ} (hd₁ : 0 < d₁) (hd₂ : 0 < d₂)
    (h : (n₁ : ℚ) / d₁ ≤ n₂ / d₂) : (ofRatio false n₁ d₁).rank ≤ (ofRatio false n₂ d₂).rank := by
  have hcross : n₁ * d₂ ≤ n₂ * d₁ := by
    rw [div_le_div_iff₀ (by exact_mod_cast hd₁) (by exact_mod_cast hd₂)] at h
    exact_mod_cast h
  have henc := encode_mono hd₁ hd₂ hcross
  have h₁ := encode_le_inf n₁ hd₁
  have h₂ := encode_le_inf n₂ hd₂
  rw [← ofRatio_false_bits n₁ d₁ hd₁] at h₁ henc
  rw [← ofRatio_false_bits n₂ d₂ hd₂] at h₂ henc
  rw [rank_of_pattern h₁, rank_of_pattern h₂]
  split_ifs with hlt₁ hlt₂
  · exact WithBot.coe_le_coe.mpr (WithTop.coe_le_coe.mpr (Int.ofNat_le.mpr (patternSteps_mono henc)))
  · exact le_top
  · omega
  · exact le_rfl

/-- The rank of the number nearest to a non-negative rational. -/
def roundRank (r : ℚ) : WithBot (WithTop ℤ) := (ofRatio false r.num.toNat r.den).rank

theorem num_toNat_div_den {r : ℚ} (hr : 0 ≤ r) : ((r.num.toNat : ℕ) : ℚ) / (r.den : ℕ) = r := by
  have hnum : ((r.num.toNat : ℤ) : ℚ) = r.num := by
    rw [Int.toNat_of_nonneg (Rat.num_nonneg.mpr hr)]
  rw [← Int.cast_natCast, hnum]
  exact Rat.num_div_den r

/-- Rounding depends on the ratio alone. -/
theorem rank_ofRatio (num : ℕ) {den : ℕ} (hden : 0 < den) :
    (ofRatio false num den).rank = roundRank (num / den) := by
  have hr : (0 : ℚ) ≤ num / den := by positivity
  have heq := num_toNat_div_den hr
  unfold roundRank
  exact le_antisymm (rank_ofRatio_mono hden (Rat.den_pos _) heq.ge)
    (rank_ofRatio_mono (Rat.den_pos _) hden heq.le)

theorem roundRank_mono {r₁ r₂ : ℚ} (h0 : 0 ≤ r₁) (h : r₁ ≤ r₂) : roundRank r₁ ≤ roundRank r₂ := by
  unfold roundRank
  apply rank_ofRatio_mono (Rat.den_pos _) (Rat.den_pos _)
  rw [num_toNat_div_den h0, num_toNat_div_den (h0.trans h)]
  exact h

theorem rank_zero (neg : Bool) : (zero neg).rank = 0 := by
  cases neg <;> decide

theorem roundRank_zero : roundRank 0 = 0 := by
  rw [← rank_zero false]
  decide

/-- The rounding of a non-negative rational is not below zero. -/
theorem roundRank_nonneg {r : ℚ} (hr : 0 ≤ r) : 0 ≤ roundRank r :=
  roundRank_zero ▸ roundRank_mono le_rfl hr

/-! ## Operations on non-negative numbers -/

theorem classify_inf (neg : Bool) : (inf neg).classify = .infinite neg := by
  cases neg <;> decide

theorem rank_inf_false : (inf false).rank = ⊤ := by
  decide

theorem rank_nan : nan.rank = 0 := by
  decide

theorem isNaN_nan : nan.isNaN = true := by
  decide

theorem isNaN_iff {x : Double} : x.isNaN = true ↔ x.classify = .nan := by
  unfold isNaN
  split <;> simp_all

/-- A not-a-number times anything is a not-a-number. -/
theorem mul_of_nan {x y : Double} (hx : x.classify = .nan) : x * y = nan := by
  show mul x y = _
  unfold mul
  rw [hx]

/-- A not-a-number over anything is a not-a-number. -/
theorem div_of_nan {x y : Double} (hx : x.classify = .nan) : x / y = nan := by
  show div x y = _
  unfold div
  rw [hx]

theorem isNaN_zero (neg : Bool) : (zero neg).isNaN = false := by
  cases neg <;> decide

theorem isNaN_inf (neg : Bool) : (inf neg).isNaN = false := by
  cases neg <;> decide

theorem ofRatio_zero (neg : Bool) (den : ℕ) : ofRatio neg 0 den = zero neg := by
  have henc : double.encode 0 den = 0 := if_pos rfl
  unfold ofRatio zero
  rw [henc]
  cases neg <;> rfl

/-- A non-negative value with a nonzero mantissa has its sign bit clear. -/
theorem neg_false_of_nonneg {v : BinaryValue} (h : 0 ≤ v.toRat) (hm : v.mant ≠ 0) :
    v.neg = false := by
  cases hv : v.neg
  · rfl
  · have hmant : (0 : ℚ) < v.mant := by exact_mod_cast Nat.pos_of_ne_zero hm
    have hpos : (0 : ℚ) < v.mant * 2 ^ v.exp := by positivity
    rw [BinaryValue.toRat, hv, if_pos rfl] at h
    linarith

/-- A positive value has a nonzero mantissa. -/
theorem mant_ne_zero_of_pos {v : BinaryValue} (h : 0 < v.toRat) : v.mant ≠ 0 := by
  rintro hm
  simp [BinaryValue.toRat, hm] at h

/-- The value a dyadic rounding is handed: `mant * 2^exp`. -/
theorem dyadic_ratio (mant : ℕ) (exp : ℤ) :
    ((mant * 2 ^ exp.toNat : ℕ) : ℚ) / ((2 ^ (-exp).toNat : ℕ) : ℚ) = mant * 2 ^ exp := by
  push_cast
  rw [mul_div_assoc, two_pow_toNat_div]

/-- A rounding with the sign clear, or of a zero magnitude, ranks where the magnitude rounds
to. -/
theorem rank_ofRatio_of_sign {neg : Bool} {num den : ℕ} (hden : 0 < den)
    (hs : neg = false ∨ num = 0) :
    (ofRatio neg num den).rank = roundRank (num / den) ∧ (ofRatio neg num den).isNaN = false := by
  rcases hs with rfl | rfl
  · exact ⟨rank_ofRatio num hden, isNaN_ofRatio_false num hden⟩
  · rw [ofRatio_zero, rank_zero, Nat.cast_zero, zero_div, roundRank_zero]
    exact ⟨rfl, isNaN_zero neg⟩

/-- Of two non-negative values, either both have the sign bit clear or one has a zero mantissa. -/
theorem sign_clear_or_zero {u w : BinaryValue} (hu : 0 ≤ u.toRat) (hw : 0 ≤ w.toRat) :
    (u.neg != w.neg) = false ∨ u.mant = 0 ∨ w.mant = 0 := by
  by_cases hu0 : u.mant = 0
  · exact .inr (.inl hu0)
  by_cases hw0 : w.mant = 0
  · exact .inr (.inr hw0)
  rw [neg_false_of_nonneg hu hu0, neg_false_of_nonneg hw hw0]
  exact .inl rfl

/-- A product of two finite non-negative numbers ranks where its exact value rounds to. -/
theorem mul_rank {x y : Double} {a b : ℚ} (hx : x.Denotes a) (hy : y.Denotes b) (ha : 0 ≤ a)
    (hb : 0 ≤ b) : (x * y).rank = roundRank (a * b) ∧ (x * y).isNaN = false := by
  obtain ⟨u, hu, rfl⟩ := hx
  obtain ⟨w, hw, rfl⟩ := hy
  have hxy : x * y = ofDyadic (u.neg != w.neg) (u.mant * w.mant) (u.exp + w.exp) := by
    show mul x y = _
    unfold mul
    rw [hu, hw]
  -- the magnitude handed to the rounding is that of the product, which is not negative
  have hval : ((u.mant * w.mant * 2 ^ (u.exp + w.exp).toNat : ℕ) : ℚ) /
      ((2 ^ (-(u.exp + w.exp)).toNat : ℕ) : ℚ) = u.toRat * w.toRat := by
    rw [dyadic_ratio, ← abs_of_nonneg ha, ← abs_of_nonneg hb, abs_toRat, abs_toRat,
      zpow_add₀ two_ne_zero]
    push_cast
    ring
  have hs : (u.neg != w.neg) = false ∨ u.mant * w.mant * 2 ^ (u.exp + w.exp).toNat = 0 := by
    rcases sign_clear_or_zero ha hb with h | h | h
    · exact .inl h
    · exact .inr (by simp [h])
    · exact .inr (by simp [h])
  rw [hxy, ofDyadic, ← hval]
  exact rank_ofRatio_of_sign (Nat.two_pow_pos _) hs

/-- A quotient of a finite non-negative number by a finite positive one ranks where its exact
value rounds to. -/
theorem div_rank {x y : Double} {a b : ℚ} (hx : x.Denotes a) (hy : y.Denotes b) (ha : 0 ≤ a)
    (hb : 0 < b) : (x / y).rank = roundRank (a / b) ∧ (x / y).isNaN = false := by
  obtain ⟨u, hu, rfl⟩ := hx
  obtain ⟨w, hw, rfl⟩ := hy
  have hw0 := mant_ne_zero_of_pos hb
  obtain ⟨hxy, hval⟩ := div_eq_ofRatio hu hw hw0
  have hs : (u.neg != w.neg) = false ∨ u.mant * 2 ^ (u.exp - w.exp).toNat = 0 := by
    rcases sign_clear_or_zero ha hb.le with h | h | h
    · exact .inl h
    · exact .inr (by simp [h])
    · exact absurd h hw0
  -- with the sign clear, or a zero numerator, the ratio handed over is the quotient
  have hratio : ((u.mant * 2 ^ (u.exp - w.exp).toNat : ℕ) : ℚ) /
      (w.mant * 2 ^ (w.exp - u.exp).toNat : ℕ) = u.toRat / w.toRat := by
    rw [← hval]
    rcases hs with h | h <;> rw [h] <;> simp
  rw [hxy, ← hratio]
  exact rank_ofRatio_of_sign (Nat.mul_pos (Nat.pos_of_ne_zero hw0) (Nat.two_pow_pos _)) hs

/-- Plus infinity over a finite positive number stays plus infinity. -/
theorem div_of_inf {x y : Double} {b : ℚ} (hx : x.classify = .infinite false) (hy : y.Denotes b)
    (hb : 0 < b) : x / y = inf false := by
  obtain ⟨w, hw, rfl⟩ := hy
  have hwn := neg_false_of_nonneg hb.le (mant_ne_zero_of_pos hb)
  show div x y = _
  unfold div
  rw [hx, hw]
  show inf (false != w.neg) = _
  rw [hwn]
  rfl

/-- Plus infinity times a finite positive number stays plus infinity. -/
theorem mul_of_inf {x y : Double} {b : ℚ} (hx : x.classify = .infinite false) (hy : y.Denotes b)
    (hb : 0 < b) : x * y = inf false := by
  obtain ⟨w, hw, rfl⟩ := hy
  have hw0 := mant_ne_zero_of_pos hb
  have hwn := neg_false_of_nonneg hb.le hw0
  show mul x y = _
  unfold mul
  rw [hx, hw]
  show (if w.mant = 0 then nan else inf (false != w.neg)) = _
  rw [if_neg hw0, hwn]
  rfl

/-- A number that is not below zero is plus infinity, a not-a-number or finite non-negative. -/
theorem cases_of_not_lt_zero {z : Double} (h : ¬ z < 0) (hn : z.isNaN = false) :
    z.classify = .infinite false ∨ ∃ a, z.Denotes a ∧ 0 ≤ a := by
  rw [lt_zero_iff] at h
  rcases hz : z.classify with _ | ⟨_ | _⟩ | v
  · simp [isNaN, hz] at hn
  · exact .inl rfl
  · simp [rank_of_infinite hz] at h
  · refine .inr ⟨v.toRat, ⟨v, hz, rfl⟩, ?_⟩
    rw [rank_of_finite hz] at h
    have hs : (0 : ℤ) ≤ v.scaled := by simpa using h
    have hs' : (0 : ℚ) ≤ v.scaled := by exact_mod_cast hs
    rw [scaled_eq hz] at hs'
    exact (mul_nonneg_iff_of_pos_right (by positivity)).mp hs'

/-- Division by a finite positive number keeps the order of numbers not below zero, plus
infinity included. -/
theorem div_le_div_of_rank_le {z₁ z₂ c : Double} {γ : ℚ} (hc : c.Denotes γ) (hγ : 0 < γ)
    (h₁ : ¬ z₁ < 0) (hn₁ : z₁.isNaN = false) (hn₂ : z₂.isNaN = false) (h : z₁.rank ≤ z₂.rank) :
    z₁ / c ≤ z₂ / c := by
  have h₂ : ¬ z₂ < 0 := by
    rw [lt_zero_iff] at h₁ ⊢
    exact fun h' => h₁ (lt_of_le_of_lt h h')
  rcases cases_of_not_lt_zero h₂ hn₂ with hinf₂ | ⟨a₂, ha₂, hpos₂⟩
  · -- over plus infinity the quotient is plus infinity, above every number
    rw [div_of_inf hinf₂ hc hγ]
    have hn : (z₁ / c).isNaN = false := by
      rcases cases_of_not_lt_zero h₁ hn₁ with hinf₁ | ⟨a₁, ha₁, hpos₁⟩
      · rw [div_of_inf hinf₁ hc hγ]
        exact isNaN_inf _
      · exact (div_rank ha₁ hc hpos₁ hγ).2
    rw [le_iff_rank hn (isNaN_inf _), rank_inf_false]
    exact le_top
  · rcases cases_of_not_lt_zero h₁ hn₁ with hinf₁ | ⟨a₁, ha₁, hpos₁⟩
    · -- plus infinity ranks above every finite number
      obtain ⟨v₂, hv₂, -⟩ := ha₂
      rw [rank_of_infinite hinf₁, rank_of_finite hv₂, if_neg Bool.false_ne_true] at h
      exact absurd h (not_le.mpr (WithBot.coe_lt_coe.mpr (WithTop.coe_lt_top _)))
    · have hle := (rank_le_iff ha₁ ha₂).mp h
      obtain ⟨hr₁, hnan₁⟩ := div_rank ha₁ hc hpos₁ hγ
      obtain ⟨hr₂, hnan₂⟩ := div_rank ha₂ hc hpos₂ hγ
      rw [le_iff_rank hnan₁ hnan₂, hr₁, hr₂]
      exact roundRank_mono (div_nonneg hpos₁ hγ.le) (div_le_div_of_nonneg_right hle hγ.le)

/-- A sum of numbers not below zero is not below zero: it is a not-a-number, plus infinity, a zero
or the rounding of a non-negative sum. -/
theorem add_not_lt_zero {x y : Double} (hx : ¬ x < 0) (hy : ¬ y < 0) : ¬ x + y < 0 := by
  rw [lt_zero_iff] at hx hy ⊢
  show ¬ (add x y).rank < 0
  have hnan : ¬ nan.rank < 0 := by
    rw [rank_nan]
    exact lt_irrefl 0
  have hinf : ¬ (inf false).rank < 0 := by
    rw [rank_inf_false]
    exact not_top_lt
  unfold add
  rcases hcx : x.classify with _ | ⟨_ | _⟩ | u
  · exact hnan
  · rcases hcy : y.classify with _ | ⟨_ | _⟩ | w
    · exact hnan
    · exact hinf
    · simp [rank_of_infinite hcy] at hy
    · exact hinf
  · simp [rank_of_infinite hcx] at hx
  rcases hcy : y.classify with _ | ⟨_ | _⟩ | w
  · exact hnan
  · exact hinf
  · simp [rank_of_infinite hcy] at hy
  -- two finite numbers: their sum in steps is not below zero
  rw [rank_of_finite hcx] at hx
  rw [rank_of_finite hcy] at hy
  have hu : 0 ≤ u.scaled := by simpa using hx
  have hw : 0 ≤ w.scaled := by simpa using hy
  dsimp only
  split_ifs with hs
  · rw [rank_zero]
    exact lt_irrefl 0
  · rw [decide_eq_false (by omega : ¬ u.scaled + w.scaled < 0), rank_ofRatio _ (Nat.two_pow_pos _)]
    exact not_lt.mpr (roundRank_nonneg (by positivity))

/-! ## Counts -/

theorem rank_ofNat (n : ℕ) : (ofNat n).rank = roundRank n := by
  rw [ofNat, rank_ofRatio _ Nat.one_pos, Nat.cast_one, div_one]

/-- A count below `2^64` rounds to a finite non-negative number. -/
theorem ofNat_denotes_nonneg {n : ℕ} (hn : n < 2 ^ 64) : ∃ r, (ofNat n).Denotes r ∧ 0 ≤ r := by
  rcases Nat.eq_zero_or_pos n with rfl | hpos
  · exact ⟨0, ofNat_denotes_of_lt (by norm_num), le_rfl⟩
  have hone : ((1 : ℕ) : ℚ) = 1 := Nat.cast_one
  have hlo : (2 : ℚ) ^ (-1022 : ℤ) ≤ (n : ℚ) / (1 : ℕ) := by
    rw [hone, div_one]
    calc (2 : ℚ) ^ (-1022 : ℤ) ≤ 1 := zpow_le_one_of_nonpos₀ one_le_two (by norm_num)
      _ ≤ n := by exact_mod_cast hpos
  have hhi : (n : ℚ) / (1 : ℕ) < 2 ^ (1023 : ℤ) := by
    rw [hone, div_one]
    calc (n : ℚ) < 2 ^ (64 : ℤ) := by rw [zpow_ofNat]; exact_mod_cast hn
      _ ≤ 2 ^ (1023 : ℤ) := zpow_le_zpow_right₀ one_le_two (by norm_num)
  obtain ⟨r, hr, hnear⟩ := ofRatio_near false Nat.one_pos hlo hhi
  rw [if_neg Bool.false_ne_true, one_mul] at hr
  refine ⟨r, hr, ?_⟩
  -- the rounding is within a relative `2^-53` of `n`, so not below zero
  rw [hone, div_one, abs_le] at hnear
  have hsmall : (n : ℚ) / 2 ^ 53 ≤ n := div_le_self (Nat.cast_nonneg n) (one_le_pow₀ one_le_two)
  linarith [hnear.1]

/-- A count times a finite non-negative number grows with the count, for counts below `2^64`. -/
theorem ofNat_mul_le {n m : ℕ} (h : n ≤ m) (hm : m < 2 ^ 64) {y : Double} {b : ℚ}
    (hy : y.Denotes b) (hb : 0 ≤ b) : ofNat n * y ≤ ofNat m * y := by
  obtain ⟨r, hr, hr0⟩ := ofNat_denotes_nonneg (lt_of_le_of_lt h hm)
  obtain ⟨s, hs, -⟩ := ofNat_denotes_nonneg hm
  have hrs : r ≤ s := by
    rw [← rank_le_iff hr hs, rank_ofNat, rank_ofNat]
    exact roundRank_mono (Nat.cast_nonneg n) (by exact_mod_cast h)
  obtain ⟨h₁, hn₁⟩ := mul_rank hr hy hr0 hb
  obtain ⟨h₂, hn₂⟩ := mul_rank hs hy (hr0.trans hrs) hb
  rw [le_iff_rank hn₁ hn₂, h₁, h₂]
  exact roundRank_mono (mul_nonneg hr0 hb) (mul_le_mul_of_nonneg_right hrs hb)

end SweptSpectrum.Double
