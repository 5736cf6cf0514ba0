import Mathlib
import SweptSpectrum.Dsp.Measure
import SweptSpectrum.Proofs.Double.Order

/-!
# The occupied-bandwidth window

The occupied bandwidth grows a window of bins around the middle bin, one bin on each side per
step, until the window holds the requested share of the total power. Its bookkeeping holds for
every spectrum, every bin width and every power law: after `h` steps the window is the run of
bins `[center - min h center, center + h)` (`mem_windowBins`), each bin taken once
(`nodup_windowBins`); the loop stops at the first window that holds the target, or when the
right side runs out (`growWindow_spec`), so every bin it reads lies in the spectrum; and the
width the program computes, `min (2 * half) len`, is the number of bins in the window
(`length_windowBins_of_le`).

The target is a share of the total, so it grows with the percentage when no bin has a negative
linear power, rounding included (`powerTarget_mono`); the loop stops no earlier for a larger
target (`growWindow_mono_target`); and for bins of a finite non-negative width the bandwidth
grows with the percentage and never passes the width of the whole spectrum.
-/

namespace SweptSpectrum.Dsp

open Vrt Double

/-! ## The window's bins -/

/-- The bins the window takes at its `h`-th step: the new left bin while there is one, then the
new right bin. -/
def stepBins (center h : ℕ) : List ℕ :=
  (if h ≤ center then [center - h] else []) ++ [center + h - 1]

/-- The bins the window holds after `h` steps, in the order they were added. -/
def windowBins (center : ℕ) : ℕ → List ℕ
  | 0 => []
  | h + 1 => windowBins center h ++ stepBins center (h + 1)

/-- After `h` steps the window is the run of bins from `center - min h center` to
`center + h`. -/
theorem mem_windowBins {center h k : ℕ} :
    k ∈ windowBins center h ↔ center - min h center ≤ k ∧ k < center + h := by
  induction h with
  | zero => simp [windowBins]
  | succ h ih =>
    rw [windowBins, List.mem_append, ih, stepBins]
    split <;> simp <;> omega

/-- No bin is taken twice: each step's bins lie outside the run taken before. -/
theorem nodup_windowBins (center h : ℕ) : (windowBins center h).Nodup := by
  induction h with
  | zero => exact List.nodup_nil
  | succ h ih =>
    rw [windowBins, List.nodup_append]
    refine ⟨ih, ?_, ?_⟩
    · unfold stepBins
      split
      · simp
        omega
      · simp
    · intro a ha b hb
      rw [mem_windowBins] at ha
      unfold stepBins at hb
      split at hb <;> simp at hb <;> omega

theorem length_windowBins (center h : ℕ) : (windowBins center h).length = h + min h center := by
  induction h with
  | zero => rfl
  | succ h ih =>
    rw [windowBins, List.length_append, ih, stepBins]
    split <;> simp <;> omega

/-- While the right side has room, the window's bins lie in the spectrum, and there are
`min (2 * h) len` of them: for an odd length the left side runs out one step before the right. -/
theorem length_windowBins_of_le {len h : ℕ} (hh : h ≤ len - len / 2) :
    (windowBins (len / 2) h).length = min (2 * h) len ∧ ∀ k ∈ windowBins (len / 2) h, k < len := by
  refine ⟨by rw [length_windowBins]; omega, fun k hk => ?_⟩
  rw [mem_windowBins] at hk
  omega

/-! ## The loop -/

section Loop

variable (linear : Float32 → Double) (spectrum : Array Float32) (center : ℕ) (target : Double)

/-- The power the loop holds after `h` steps: the linear powers of the window's bins, summed in
the order the bins were added. -/
def windowPower (h : ℕ) : Double :=
  (windowBins center h).foldl (fun acc k => acc + linear (spectrum.getD k 0.0)) 0

/-- One step adds the new left bin, while there is one, then the new right bin. -/
theorem windowPower_succ (h : ℕ) :
    windowPower linear spectrum center (h + 1) =
      (if h + 1 ≤ center then
          windowPower linear spectrum center h + linear (spectrum.getD (center - (h + 1)) 0.0)
        else windowPower linear spectrum center h) +
        linear (spectrum.getD (center + (h + 1) - 1) 0.0) := by
  unfold windowPower
  rw [windowBins, List.foldl_append, stepBins]
  split <;> simp

/-- The loop from step `h` holding the window's power: one more step while the window holds
less than the target. -/
theorem growWindow_succ (fuel h : ℕ) :
    growWindow linear spectrum center target (fuel + 1) h (windowPower linear spectrum center h) =
      if windowPower linear spectrum center h < target then
        growWindow linear spectrum center target fuel (h + 1)
          (windowPower linear spectrum center (h + 1))
      else h := by
  rw [growWindow, windowPower_succ]

/-- Whatever the comparisons give, the loop from step `h` stops between `h` and `h + fuel`. -/
theorem growWindow_bounds (fuel h : ℕ) (power : Double) :
    h ≤ growWindow linear spectrum center target fuel h power ∧
      growWindow linear spectrum center target fuel h power ≤ h + fuel := by
  induction fuel generalizing h power with
  | zero => simp [growWindow]
  | succ fuel ih =>
    rw [growWindow]
    split
    · exact ⟨(ih (h + 1) _).1.trans' (Nat.le_succ h), (ih (h + 1) _).2.trans (by omega)⟩
    · omega

/-- The loop from step `h` passes only windows that hold less than the target, and stops at one
that holds it unless the fuel runs out. -/
theorem growWindow_spec (fuel h : ℕ) :
    (∀ j, h ≤ j →
        j < growWindow linear spectrum center target fuel h (windowPower linear spectrum center h) →
        windowPower linear spectrum center j < target) ∧
      (growWindow linear spectrum center target fuel h (windowPower linear spectrum center h) <
          h + fuel →
        ¬ windowPower linear spectrum center
          (growWindow linear spectrum center target fuel h (windowPower linear spectrum center h)) <
          target) := by
  induction fuel generalizing h with
  | zero =>
    simp only [growWindow]
    exact ⟨fun j hj hjlt => absurd hjlt (by omega), fun hlt => absurd hlt (by omega)⟩
  | succ fuel ih =>
    rw [growWindow_succ]
    split
    · -- the window at `h` holds less than the target; the rest is the loop from `h + 1`
      rename_i hlt
      obtain ⟨hbefore, hstop⟩ := ih (h + 1)
      refine ⟨fun j hj hjlt => ?_, fun hlt' => hstop (by omega)⟩
      rcases hj.lt_or_eq with hj | rfl
      · exact hbefore j hj hjlt
      · exact hlt
    · rename_i hge
      exact ⟨fun j hj hjlt => absurd hjlt (by omega), fun _ => hge⟩

/-- The loop from the empty window: it stops within its fuel, after windows that each held less
than the target, at one that holds it unless the fuel ran out. -/
theorem growWindow_from_empty (fuel : ℕ) :
    growWindow linear spectrum center target fuel 0 0 ≤ fuel ∧
      (∀ h < growWindow linear spectrum center target fuel 0 0,
        windowPower linear spectrum center h < target) ∧
      (growWindow linear spectrum center target fuel 0 0 < fuel →
        ¬ windowPower linear spectrum center (growWindow linear spectrum center target fuel 0 0) <
          target) := by
  -- the empty window holds the power the loop starts from, zero
  obtain ⟨hbefore, hstop⟩ := growWindow_spec linear spectrum center target fuel 0
  have hle := (growWindow_bounds linear spectrum center target fuel 0 0).2
  rw [Nat.zero_add] at hle hstop
  exact ⟨hle, fun h hh => hbefore h (Nat.zero_le h) hh, hstop⟩

end Loop

/-- A larger target never stops the loop earlier: a window below the smaller target is below the
larger one. A not-a-number target stops it at once. -/
theorem growWindow_mono_target (linear : Float32 → Double) (spectrum : Array Float32)
    (center : ℕ) {t₁ t₂ : Double} (ht : t₁.isNaN = true ∨ t₁ ≤ t₂) (fuel h : ℕ) :
    growWindow linear spectrum center t₁ fuel h (windowPower linear spectrum center h) ≤
      growWindow linear spectrum center t₂ fuel h (windowPower linear spectrum center h) := by
  induction fuel generalizing h with
  | zero => simp [growWindow]
  | succ fuel ih =>
    rw [growWindow_succ, growWindow_succ]
    by_cases h₁ : windowPower linear spectrum center h < t₁
    · have h₂ : windowPower linear spectrum center h < t₂ := by
        rcases ht with hnan | hle
        · -- nothing is below a not-a-number
          rw [(isNaN_of_lt h₁).2] at hnan
          exact absurd hnan Bool.false_ne_true
        · exact lt_of_lt_le h₁ hle
      rw [if_pos h₁, if_pos h₂]
      exact ih (h + 1)
    · rw [if_neg h₁]
      split
      · exact (growWindow_bounds linear spectrum center t₂ fuel (h + 1) _).1.trans' (by omega)
      · exact le_rfl

/-! ## The target -/

/-- With no bin of negative linear power the total is not below zero. -/
theorem totalPower_not_lt_zero {linear : Float32 → Double} (hlin : ∀ db, ¬ linear db < 0)
    (spectrum : Array Float32) : ¬ totalPower linear spectrum < 0 := by
  unfold totalPower
  -- the running sum stays not below zero
  suffices h : ∀ (l : List Float32) (acc : Double), ¬ acc < 0 →
      ¬ l.foldl (fun acc db => acc + linear db) acc < 0 from
    h _ 0 (by decide)
  intro l
  induction l with
  | nil => exact fun _ h => h
  | cons db l ih => exact fun acc hacc => ih _ (add_not_lt_zero hacc (hlin db))

theorem hundred_denotes : (100 : Double).Denotes 100 := by
  have h := ofNat_denotes_of_lt (by norm_num : (100 : ℕ) < 2 ^ 53)
  rw [Nat.cast_ofNat] at h
  exact h

/-- With no bin of negative linear power the target grows with the percentage, rounding
included. A total that is not a number makes every target not a number. -/
theorem powerTarget_mono {linear : Float32 → Double} (hlin : ∀ db, ¬ linear db < 0)
    (spectrum : Array Float32) {p₁ p₂ : Float32} (h₁ : 0 < widen p₁) (h₁₂ : widen p₁ ≤ widen p₂)
    (h₂ : widen p₂ ≤ 100) :
    (powerTarget linear spectrum p₁).isNaN = true ∨
      powerTarget linear spectrum p₁ ≤ powerTarget linear spectrum p₂ := by
  -- both percentages are finite and positive
  obtain ⟨ω₂, hω₂, hpos₂⟩ := denotes_pos_of_lt_of_le (lt_of_lt_le h₁ h₁₂) h₂ hundred_denotes
  obtain ⟨ω₁, hω₁, hpos₁⟩ := denotes_pos_of_lt_of_le h₁ h₁₂ hω₂
  have hω : ω₁ ≤ ω₂ :=
    (rank_le_iff hω₁ hω₂).mp ((le_iff_rank (isNaN_of_le h₁₂).1 (isNaN_of_le h₁₂).2).mp h₁₂)
  have hT := totalPower_not_lt_zero hlin spectrum
  unfold powerTarget
  cases hnan : (totalPower linear spectrum).isNaN
  · right
    rcases cases_of_not_lt_zero hT hnan with hinf | ⟨τ, hτ, hτ0⟩
    · -- an infinite total gives an infinite target for every percentage
      rw [mul_of_inf hinf hω₁ hpos₁, mul_of_inf hinf hω₂ hpos₂,
        div_of_inf (classify_inf false) hundred_denotes (by norm_num)]
      exact (le_iff_rank (isNaN_inf _) (isNaN_inf _)).mpr le_rfl
    · obtain ⟨hr₁, hn₁⟩ := mul_rank hτ hω₁ hτ0 hpos₁.le
      obtain ⟨hr₂, hn₂⟩ := mul_rank hτ hω₂ hτ0 hpos₂.le
      have hprod : 0 ≤ τ * ω₁ := mul_nonneg hτ0 hpos₁.le
      refine div_le_div_of_rank_le hundred_denotes (by norm_num) ?_ hn₁ hn₂ ?_
      · rw [lt_zero_iff, hr₁]
        exact not_lt.mpr (roundRank_nonneg hprod)
      · rw [hr₁, hr₂]
        exact roundRank_mono hprod (mul_le_mul_of_nonneg_left hω hτ0)
  · left
    rw [mul_of_nan (isNaN_iff.mp hnan), div_of_nan (isNaN_iff.mp isNaN_nan)]
    exact isNaN_nan

/-! ## The bandwidth -/

theorem checkRange_whole {spectrum : Array Float32} (hne : 0 < spectrum.size) :
    checkRange spectrum 0 spectrum.size = .ok () := by
  have hguard : (decide (0 ≥ spectrum.size) || decide (spectrum.size > spectrum.size)) = false := by
    simp only [Bool.or_eq_false_iff, decide_eq_false_iff_not]
    omega
  unfold checkRange
  rw [hguard]
  rfl

/-- For a non-empty spectrum and a percentage in `(0, 100]` the bandwidth is the width
`min (2 * half) len` where the loop stopped, times the bin width. -/
theorem occupiedBandwidthWith_eq (linear : Float32 → Double) {spectrum : Array Float32}
    (rbw : Double) {percentage : Float32} (hne : 0 < spectrum.size)
    (hpct : 0 < widen percentage ∧ widen percentage ≤ 100) :
    occupiedBandwidthWith linear spectrum rbw percentage =
      .ok (Double.ofNat (min (2 * growWindow linear spectrum (spectrum.size / 2)
        (powerTarget linear spectrum percentage) (spectrum.size - spectrum.size / 2) 0 0)
        spectrum.size) * rbw) := by
  have hguard : (!(decide (0 < widen percentage) && decide (widen percentage ≤ 100))) = false := by
    simp only [decide_eq_true hpct.1, decide_eq_true hpct.2, Bool.and_self, Bool.not_true]
  unfold occupiedBandwidthWith
  rw [hguard, checkRange_whole hne]
  rfl

/-- The occupied bandwidth's window, for every power law `linear`, spectrum, bin width and
percentage in `(0, 100]`. The loop runs `half` times, at most once per bin right of the middle:
each window it passed held less than the target, and it stopped at one that holds it unless the
right side ran out. After `h` steps the window is the run `[center - min h center, center + h)`;
no bin is taken twice, every bin read lies in the spectrum, and the bandwidth is the number of
bins in the window times the bin width. For bins of a finite non-negative width and fewer than
`2^64` bins the bandwidth is at most that of the whole spectrum, and with no bin of negative
linear power it grows with the percentage. -/
theorem occupiedBandwidth_window (linear : Float32 → Double) (spectrum : Array Float32)
    (rbw : Double) (percentage : Float32) (hne : 0 < spectrum.size)
    (hpct : 0 < widen percentage ∧ widen percentage ≤ 100) :
    ∃ half ≤ spectrum.size - spectrum.size / 2,
      (∀ h < half, windowPower linear spectrum (spectrum.size / 2) h <
        powerTarget linear spectrum percentage) ∧
      (half < spectrum.size - spectrum.size / 2 →
        ¬ windowPower linear spectrum (spectrum.size / 2) half <
          powerTarget linear spectrum percentage) ∧
      (∀ h ≤ half, ∀ k, k ∈ windowBins (spectrum.size / 2) h ↔
        spectrum.size / 2 - min h (spectrum.size / 2) ≤ k ∧ k < spectrum.size / 2 + h) ∧
      (windowBins (spectrum.size / 2) half).Nodup ∧
      (∀ k ∈ windowBins (spectrum.size / 2) half, k < spectrum.size) ∧
      (windowBins (spectrum.size / 2) half).length = min (2 * half) spectrum.size ∧
      occupiedBandwidthWith linear spectrum rbw percentage =
        .ok (Double.ofNat (min (2 * half) spectrum.size) * rbw) ∧
      (rbw.isFinite = true → 0 ≤ rbw → spectrum.size < 2 ^ 64 →
        Double.ofNat (min (2 * half) spectrum.size) * rbw ≤ Double.ofNat spectrum.size * rbw ∧
        ∀ percentage', (∀ db, ¬ linear db < 0) → widen percentage ≤ widen percentage' →
          widen percentage' ≤ 100 →
          ∃ bw, occupiedBandwidthWith linear spectrum rbw percentage' = .ok bw ∧
            Double.ofNat (min (2 * half) spectrum.size) * rbw ≤ bw) := by
  obtain ⟨hle, hbefore, hstop⟩ := growWindow_from_empty linear spectrum (spectrum.size / 2)
    (powerTarget linear spectrum percentage) (spectrum.size - spectrum.size / 2)
  obtain ⟨hlength, hinside⟩ := length_windowBins_of_le hle
  refine ⟨_, hle, hbefore, hstop, fun h _ k => mem_windowBins, nodup_windowBins _ _, hinside,
    hlength, occupiedBandwidthWith_eq linear rbw hne hpct, fun hfin hrbw hsize => ?_⟩
  obtain ⟨ρ, hρ⟩ := denotes_of_isFinite hfin
  have hρ0 := nonneg_of_le hρ hrbw
  refine ⟨ofNat_mul_le (min_le_right _ _) hsize hρ hρ0, fun p' hlin h₁₂ h₂ => ?_⟩
  refine ⟨_, occupiedBandwidthWith_eq linear rbw hne ⟨lt_of_lt_le hpct.1 h₁₂, h₂⟩, ?_⟩
  -- a larger target stops the loop no earlier, so the window counts no fewer bins
  have hhalf := growWindow_mono_target linear spectrum (spectrum.size / 2)
    (powerTarget_mono hlin spectrum hpct.1 h₁₂ h₂) (spectrum.size - spectrum.size / 2) 0
  exact ofNat_mul_le (min_le_min_right _ (Nat.mul_le_mul_left 2 hhalf))
    (lt_of_le_of_lt (min_le_right _ _) hsize) hρ hρ0

/-- Three bins of 0 dB, each of linear power one, and half the power: the window stops after one
step, holding two bins. -/
theorem occupiedBandwidth_window_three_bins :
    (0 < #[(0.0 : Float32), 0.0, 0.0].size ∧ 0 < widen 50.0 ∧ widen 50.0 ≤ 100) ∧
      occupiedBandwidthWith (fun _ => 1) #[0.0, 0.0, 0.0] 1 50.0 = .ok (Double.ofNat 2 * 1) := by
  have hne : 0 < #[(0.0 : Float32), 0.0, 0.0].size := by decide
  have hpct : 0 < widen 50.0 ∧ widen 50.0 ≤ 100 := ⟨by decide +kernel, by decide +kernel⟩
  obtain ⟨half, hle, hbefore, hstop, -, -, -, -, hbw, -⟩ :=
    occupiedBandwidth_window (fun _ => 1) _ 1 50.0 hne hpct
  -- the empty window holds less than the target of one and a half, the first window holds two
  have h0 : windowPower (fun _ => 1) #[(0.0 : Float32), 0.0, 0.0] 1 0 <
      powerTarget (fun _ => 1) #[0.0, 0.0, 0.0] 50.0 := by decide +kernel
  have h1 : ¬ windowPower (fun _ => 1) #[(0.0 : Float32), 0.0, 0.0] 1 1 <
      powerTarget (fun _ => 1) #[0.0, 0.0, 0.0] 50.0 := by decide +kernel
  have hhalf : half = 1 := by
    rcases Nat.lt_or_ge half 1 with hlt | hge
    · -- stopping at once would need the empty window to hold the target
      obtain rfl : half = 0 := by omega
      exact absurd h0 (hstop (by decide))
    · rcases hge.lt_or_eq with hgt | heq
      · exact absurd (hbefore 1 hgt) h1
      · exact heq.symm
  subst hhalf
  exact ⟨⟨hne, hpct⟩, hbw⟩

/-- With a negative bin width the bandwidth is not bounded by the width of the whole spectrum:
for three bins of 0 dB, each of linear power one, and half the power, the window holds two bins,
and two times `-1` lies above three times `-1`. -/
theorem occupiedBandwidth_negative_width :
    occupiedBandwidthWith (fun _ => 1) #[0.0, 0.0, 0.0] (-1) 50.0 = .ok (Double.ofNat 2 * -1) ∧
      ¬ Double.ofNat 2 * -1 ≤ Double.ofNat #[(0.0 : Float32), 0.0, 0.0].size * -1 := by
  have hhalf : growWindow (fun _ => 1) #[(0.0 : Float32), 0.0, 0.0] (#[(0.0 : Float32), 0.0, 0.0].size / 2)
      (powerTarget (fun _ => 1) #[0.0, 0.0, 0.0] 50.0)
      (#[(0.0 : Float32), 0.0, 0.0].size - #[(0.0 : Float32), 0.0, 0.0].size / 2) 0 0 = 1 := by
    decide +kernel
  refine ⟨?_, by decide +kernel⟩
  rw [occupiedBandwidthWith_eq _ _ (by decide) ⟨by decide +kernel, by decide +kernel⟩, hhalf]
  rfl

end SweptSpectrum.Dsp
