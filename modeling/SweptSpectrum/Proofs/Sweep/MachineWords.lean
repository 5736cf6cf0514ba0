import SweptSpectrum.Proofs.Sweep.Tiling
import SweptSpectrum.Proofs.Double.Rounding

/-!
# Planning within machine words

A plan is computed on 64-bit frequencies and 32-bit counts. Two sums are checked: `fstart` plus
half the usable width, and its rounding up to the tuning grid; past `maxU64` they are refused as
out of range. The mode and the resolution are checked before them, so a not-a-number resolution
is refused as such whatever the band (`plan_checks_rbw_first`). Every other word is computed
unchecked, and the profiles keep it in range: the centers stay below a tuning limit far from
the top of the 64-bit range, and the tunable range holds a few thousand steps.

The main statement, `plan_within_machine_words`: planning fails only with a planning error; once
the mode and the resolution pass, an overflow of the checked sums is a frequency out of range;
the FFT size is one shifted left by at most 62 places; and the entries laid out from a tuning
that succeeded have no difference below zero, no 64-bit word past `maxU64` and no 32-bit count
past `maxU32` (`Tuning.Fits`).
-/

namespace SweptSpectrum.Sweep

/-- The largest value of a 32-bit unsigned integer. -/
def maxU32 : Nat := 2 ^ 32 - 1

/-- Every word `plan` computes unchecked from the tuning `t` of the band `[fstart, fstop)` fits
its type, whatever the FFT size the entries are laid out for. -/
structure Tuning.Fits (t : Tuning) (fstart fstop : Nat) : Prop where
  /-- `fstop - fstart`, the band the bins divide -/
  band : fstart ≤ fstop
  /-- `fcstop - fcstart`, the distance the steps cover -/
  span : t.fcstart ≤ t.fcstop
  /-- `fcstart + steps * fstep`, the last center of the run that reaches `fcstop` -/
  last_center : t.fcstart + (t.fcstop - t.fcstart + t.profile.usableBw - 1) /
    t.profile.usableBw * t.profile.usableBw ≤ maxU64
  /-- `maxTunable - fcstart`, the room below the tuning limit -/
  headroom : t.fcstart ≤ t.profile.maxTunable
  /-- `fcstart + inRange * fstep`, the last center of the run cut at the tuning limit -/
  tunable_end : t.fcstart + (t.profile.maxTunable - t.fcstart) / t.profile.usableBw *
    t.profile.usableBw ≤ maxU64
  /-- every tuned frequency -/
  centers : ∀ size, ∀ c ∈ (planEntries t.profile t.fcstart t.fcstop size).flatMap
    PlanEntry.centers, c ≤ maxU64
  /-- the tunings and packets of each entry -/
  counts : ∀ size, ∀ e ∈ planEntries t.profile t.fcstart t.fcstop size,
    e.tunings ≤ maxU32 ∧ e.packetCount ≤ maxU32
  /-- the packets of the whole sweep -/
  total : ∀ size,
    ((planEntries t.profile t.fcstart t.fcstop size).map PlanEntry.packetCount).sum ≤ maxU32

/-! ## Profiles and the FFT size -/

/-- Every profile has room in 64 bits for one step past its tuning limit, and its tunable range
holds far fewer than `2^32` steps. -/
theorem Profile.words_of_mem {p : Profile} (h : p ∈ Profile.all) :
    p.maxTunable + p.usableBw ≤ maxU64 ∧ p.maxTunable / p.usableBw + 2 ≤ maxU32 := by
  simp only [Profile.all, List.mem_cons, List.not_mem_nil, or_false] at h
  rcases h with rfl | rfl <;> decide

theorem Profile.forMode_error {mode : RfeMode} {e : SweepError}
    (h : Profile.forMode mode = .error e) : e = .unsupportedMode mode.name := by
  unfold Profile.forMode at h
  split at h
  · cases h
  · cases h
    rfl

/-- The FFT size is one shifted left by at most 62 places, whatever the resolution: an exponent
of 63 or more is replaced by 62, and any other, a not-a-number included, converts below 63. -/
theorem fftSizeFor_shift_le (fullBw : Nat) (rbw : Double) :
    ∃ k ≤ 62, fftSizeFor fullBw rbw = 2 ^ k := by
  unfold fftSizeFor
  dsimp only
  split
  · exact ⟨62, le_refl 62, rfl⟩
  · rename_i hsmall
    exact ⟨_, Nat.lt_succ_iff.mp (Double.toUInt64_lt_of_not_le (by decide) (by decide) hsmall),
      rfl⟩

/-! ## Failures -/

section Failures

variable {fstart fstop : Nat} {rbw : Double} {mode : RfeMode}

/-- Tuning fails only with a planning error. -/
theorem tune_error_isPlanningError {e : SweepError} (h : tune fstart fstop rbw mode = .error e) :
    e.isPlanningError = true := by
  unfold tune at h
  cases hp : Profile.forMode mode with
  | error e' =>
    rw [hp] at h
    cases h
    rw [Profile.forMode_error hp]
    rfl
  | ok prop =>
    rw [hp] at h
    simp only [bind, Except.bind, throw, throwThe, MonadExceptOf.throw, pure, Except.pure] at h
    split at h
    · cases h
      rfl
    split at h
    · cases h
      rfl
    split at h
    · split at h
      · cases h
        rfl
      split at h
      · cases h
        rfl
      split at h
      · cases h
        rfl
      · cases h
    · cases h
      rfl

theorem plan_of_tune_error {e : SweepError} (h : tune fstart fstop rbw mode = .error e) :
    plan fstart fstop rbw mode = .error e := by
  unfold plan
  rw [h]
  rfl

/-- Planning fails only with a planning error. -/
theorem plan_error_isPlanningError {e : SweepError} (h : plan fstart fstop rbw mode = .error e) :
    e.isPlanningError = true := by
  unfold plan at h
  cases ht : tune fstart fstop rbw mode with
  | error e' =>
    rw [ht] at h
    cases h
    exact tune_error_isPlanningError ht
  | ok t =>
    rw [ht] at h
    simp only [bind, Except.bind, throw, throwThe, MonadExceptOf.throw, pure, Except.pure] at h
    split at h
    · cases h
      rfl
    · cases h

/-- A mode without a profile is refused before anything else is looked at. -/
theorem tune_unsupportedMode {e : SweepError} (hp : Profile.forMode mode = .error e) :
    tune fstart fstop rbw mode = .error e := by
  unfold tune
  rw [hp]
  rfl

/-- A resolution that is not a finite positive number is refused before the band is looked at. -/
theorem tune_invalidRbw {prop : Profile} (hp : Profile.forMode mode = .ok prop)
    (hrbw : ¬ (rbw.isFinite = true ∧ 0 < rbw)) :
    tune fstart fstop rbw mode = .error (.invalidRbw rbw) := by
  unfold tune
  rw [hp]
  have hcheck : (!(rbw.isFinite && decide (rbw > 0))) = true := by
    cases hf : rbw.isFinite
    · rfl
    · simpa using fun hpos => hrbw ⟨hf, hpos⟩
  simp only [bind, Except.bind, throw, throwThe, MonadExceptOf.throw, pure, Except.pure]
  rw [if_pos hcheck]

/-- Once the mode and the resolution pass, a first center whose rounding up to the tuning grid
passes the 64-bit range is refused as out of range, as is a band whose ends are swapped. -/
theorem tune_overflow_outOfRange {prop : Profile} (hp : Profile.forMode mode = .ok prop)
    (hfin : rbw.isFinite = true) (hpos : 0 < rbw)
    (hover : maxU64 < fstart + prop.usableBw / 2 ∨
      maxU64 < (fstart + prop.usableBw / 2 + prop.tuningResolution - 1) /
        prop.tuningResolution * prop.tuningResolution) :
    ∃ detail, tune fstart fstop rbw mode = .error (.frequencyOutOfRange detail) := by
  -- either the sum or its rounding passes the range: there is no first center
  have hnone : (if fstart + prop.usableBw / 2 ≤ maxU64 then
      roundUp (fstart + prop.usableBw / 2) prop.tuningResolution else none) = none := by
    split
    · unfold roundUp
      exact if_neg (by omega)
    · rfl
  unfold tune
  rw [hp]
  simp only [bind, Except.bind, throw, throwThe, MonadExceptOf.throw, pure, Except.pure]
  rw [if_neg (by simpa using And.intro hfin hpos)]
  split
  · exact ⟨_, rfl⟩
  · simp only [hnone]
    exact ⟨_, rfl⟩

end Failures

/-! ## Laying out the entries -/

/-- The entries between two centers send at most one packet per usable width of the tunable
range, and one more for a lone last center. -/
theorem planEntries_packets_le (prop : Profile) (a b size : Nat) (hs : 0 < prop.usableBw) :
    ((planEntries prop a b size).map PlanEntry.packetCount).sum ≤
      prop.maxTunable / prop.usableBw + 2 := by
  rcases planEntries_cases prop a b size with ⟨hfit, hE⟩ | ⟨-, hE⟩
  · -- one run of `k + 1` centers, whose last one is tunable
    rw [hE]
    generalize (b - a + prop.usableBw - 1) / prop.usableBw = k at hfit
    have hk : k ≤ prop.maxTunable / prop.usableBw := (Nat.le_div_iff_mul_le hs).mpr (by omega)
    simp only [List.map_cons, List.map_nil, List.sum_cons, List.sum_nil, PlanEntry.packetCount,
      PlanEntry.tunings_run _ _ _ _ _ hs]
    omega
  · -- the run cut at the tuning limit, then one center
    rw [hE]
    have hk : (prop.maxTunable - a) / prop.usableBw ≤ prop.maxTunable / prop.usableBw :=
      Nat.div_le_div_right (Nat.sub_le _ _)
    have hone : (⟨b, b, prop.usableBw, size, 1⟩ : PlanEntry).tunings = 1 := by
      simp [PlanEntry.tunings]
    simp only [List.map_cons, List.map_nil, List.sum_cons, List.sum_nil, PlanEntry.packetCount,
      PlanEntry.tunings_run _ _ _ _ _ hs, hone]
    omega

theorem le_of_tune_eq_ok {fstart fstop : Nat} {rbw : Double} {mode : RfeMode} {t : Tuning}
    (h : tune fstart fstop rbw mode = .ok t) : fstart ≤ fstop := by
  unfold tune at h
  obtain ⟨prop, -, h⟩ := Except.bind_eq_ok.mp h
  simp only [bind, Except.bind, throw, throwThe, MonadExceptOf.throw, pure, Except.pure] at h
  split at h
  · cases h
  split at h
  · cases h
  · omega

/-- From a tuning that succeeded, every unchecked word of the layout fits its type. -/
theorem tune_fits {fstart fstop : Nat} {rbw : Double} {mode : RfeMode} {t : Tuning}
    (h : tune fstart fstop rbw mode = .ok t) : t.Fits fstart fstop := by
  obtain ⟨hp, -, hstop, -, hmax, -, -⟩ := tune_eq_ok h
  have hmem := Profile.mem_of_forMode hp
  have hs := Profile.usableBw_pos hmem
  obtain ⟨hroom, hcount⟩ := Profile.words_of_mem hmem
  have hspan : t.fcstart ≤ t.fcstop := hstop ▸ le_max_right _ _
  -- the run that reaches `fcstop` ends less than a step past it
  obtain ⟨-, hceil⟩ := ceil_steps_mul (t.fcstop - t.fcstart) hs
  obtain ⟨hfloor, -⟩ := floor_steps_mul (t.profile.maxTunable - t.fcstart) hs
  refine ⟨le_of_tune_eq_ok h, hspan, by omega, by omega, by omega, fun size c hc => ?centers,
    fun size e he => ?counts, fun size => ?total⟩
  case centers =>
    have := ((planEntries_centers_span t.fcstart t.fcstop size hs hspan hmax).2.2.1 c hc).2
    omega
  case total =>
    have := planEntries_packets_le t.profile t.fcstart t.fcstop size hs
    omega
  case counts =>
    have htotal := planEntries_packets_le t.profile t.fcstart t.fcstop size hs
    have hle := List.le_sum_of_mem (List.mem_map_of_mem (f := PlanEntry.packetCount) he)
    -- an entry sends one packet per tuning
    obtain ⟨c, k, rfl⟩ := planEntries_runs _ _ _ _ e he
    simp only [PlanEntry.packetCount, Nat.mul_one] at hle ⊢
    omega

/-! ## The plan -/

/-- Planning stays within machine words, for every band, resolution and mode: it fails only with
a planning error; a mode without a profile is reported first, then a resolution that is not a
finite positive number, whatever the band; once the mode has a profile and the resolution is a
finite positive number, `fstart` plus half the usable width, or its rounding up to the tuning
grid, past `maxU64` is a frequency out of range; the FFT size is one shifted left by at most 62
places; and every unchecked word laid out from a tuning that succeeded fits its type
(`Tuning.Fits`). -/
theorem plan_within_machine_words (fstart fstop : Nat) (rbw : Double) (mode : RfeMode) :
    (∀ e, plan fstart fstop rbw mode = .error e → e.isPlanningError = true) ∧
    (∀ e, Profile.forMode mode = .error e → plan fstart fstop rbw mode = .error e) ∧
    (∀ prop, Profile.forMode mode = .ok prop → ¬ (rbw.isFinite = true ∧ 0 < rbw) →
      plan fstart fstop rbw mode = .error (.invalidRbw rbw)) ∧
    (∀ prop, Profile.forMode mode = .ok prop → rbw.isFinite = true → 0 < rbw →
      (maxU64 < fstart + prop.usableBw / 2 ∨
        maxU64 < (fstart + prop.usableBw / 2 + prop.tuningResolution - 1) /
          prop.tuningResolution * prop.tuningResolution) →
      ∃ detail, plan fstart fstop rbw mode = .error (.frequencyOutOfRange detail)) ∧
    (∀ fullBw, ∃ k ≤ 62, fftSizeFor fullBw rbw = 2 ^ k) ∧
    ∀ t, tune fstart fstop rbw mode = .ok t → t.Fits fstart fstop := by
  refine ⟨fun _ => plan_error_isPlanningError,
    fun _ hp => plan_of_tune_error (tune_unsupportedMode hp),
    fun _ hp hrbw => plan_of_tune_error (tune_invalidRbw hp hrbw), fun _ hp hfin hpos hover => ?_,
    fun fullBw => fftSizeFor_shift_le fullBw rbw, fun _ => tune_fits⟩
  obtain ⟨detail, h⟩ := tune_overflow_outOfRange hp hfin hpos hover
  exact ⟨detail, plan_of_tune_error h⟩

/-- Two hertz below the top of the 64-bit range, in the SHN mode at a resolution of 100 kHz,
`fstart` plus half the usable width passes the range and the plan is refused as out of range. -/
theorem plan_within_machine_words_top :
    maxU64 < (2 ^ 64 - 2) + Profile.shn.usableBw / 2 ∧
      ∃ detail, plan (2 ^ 64 - 2) (2 ^ 64 - 1) 100000 .shn =
        .error (.frequencyOutOfRange detail) := by
  have hover : maxU64 < (2 ^ 64 - 2) + Profile.shn.usableBw / 2 := by decide
  exact ⟨hover, (plan_within_machine_words _ _ _ _).2.2.2.1 Profile.shn rfl (by decide +kernel)
    (by decide +kernel) (.inl hover)⟩

/-- The resolution is checked before the band: a not-a-number resolution is refused as such even
where `fstart` plus half the usable width passes the 64-bit range. -/
theorem plan_checks_rbw_first :
    maxU64 < (2 ^ 64 - 2) + Profile.shn.usableBw / 2 ∧
      plan (2 ^ 64 - 2) (2 ^ 64 - 1) Double.nan .shn = .error (.invalidRbw Double.nan) := by
  have hnan : Double.nan.isFinite = false := by decide
  exact ⟨by decide, plan_of_tune_error (tune_invalidRbw rfl fun h => by simp [hnan] at h)⟩

end SweptSpectrum.Sweep
