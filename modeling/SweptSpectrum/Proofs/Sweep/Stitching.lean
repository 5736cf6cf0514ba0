import Mathlib
import SweptSpectrum.Sweep.Capture
import SweptSpectrum.Proofs.Sweep.Tiling
import SweptSpectrum.Proofs.Double.Rounding
import SweptSpectrum.Proofs.Dsp.Loading

/-!
# Stitching a sweep into the spectrum buffer

A capture writes the usable bins of each data packet from the bin where the usable band of its
tuning starts, `(c - usableBw / 2 - fstart) / rbw` rounded down, and refuses a packet whose start
bin lies outside the buffer. All of it is computed in binary64. For every plan the planner
returns, the numbers involved are whole numbers below `2^53` or quotients of them by the
resolution `fullBw / 2^k`, so the computed bins are the exact ones: the start bin is
`SweepPlan.startBin`, the buffer holds the whole bins of `[fstart, fstop)`, and the usable bins
of a packet span at least the usable width, rounded up.

On exact bins the planner and the capture agree up to one bin. The planner reaches `fstop` with
whole tunings while the buffer holds only the whole bins below it, so the last tuning can start
in the dropped partial bin, at the end of the buffer, where the capture refuses it. Every other
tuning starts inside the buffer, and consecutive tunings leave no gap, so the buffer is written
whole all the same (`stitch_planned_centers`).
-/

namespace SweptSpectrum.Sweep

open Double Vrt Dsp

/-- The bin of a plan's buffer at which the usable band of a tuning to `c` starts: the distance
from `fstart` to the band's left edge `c - usableBw / 2`, in bins of `fullBw / samplesPerPacket`
hertz, rounded down. -/
def SweepPlan.startBin (cfg : SweepPlan) (prop : Profile) (c : ℕ) : ℕ :=
  (c - prop.usableBw / 2 - cfg.fstart) * cfg.samplesPerPacket / prop.fullBw

/-- The usable width of a tuning in bins of the plan's resolution, rounded up. -/
def SweepPlan.usableBinCount (cfg : SweepPlan) (prop : Profile) : ℕ :=
  (prop.usableBw * cfg.samplesPerPacket + prop.fullBw - 1) / prop.fullBw

/-! ## What a plan promises the capture -/

/-- What stitching uses of a profile: a full band of 62.5 MHz holding a usable band of even
width, at least 10 MHz, on a 10 Hz tuning grid up to 27 GHz. -/
theorem Profile.stitch_bounds {p : Profile} (h : p ∈ Profile.all) :
    p.fullBw = 62500000 ∧ p.usableBw % 2 = 0 ∧ 10000000 ≤ p.usableBw ∧
      p.usableLeft + p.usableBw = p.usableRight ∧ p.usableRight ≤ p.fullBw ∧
      p.tuningResolution = 10 ∧ p.maxTunable = 27000000000 := by
  simp only [Profile.all, List.mem_cons, List.not_mem_nil, or_false] at h
  rcases h with rfl | rfl <;> decide

/-- What stitching needs of a plan, for the profile `prop` of its mode and its FFT size `2^k`:
the resolution and buffer length as the planner computes them, and where the centers lie. -/
structure SweepPlan.Stitchable (cfg : SweepPlan) (prop : Profile) (k : ℕ) : Prop where
  profile : prop ∈ Profile.all
  size : cfg.samplesPerPacket = 2 ^ k
  size_ge : 8 ≤ k
  size_le : k ≤ 15
  rbw : cfg.rbw = Double.ofNat prop.fullBw / Double.ofNat cfg.samplesPerPacket
  bins : cfg.bins = Profile.countOf (Double.ofNat (cfg.fstop - cfg.fstart) / cfg.rbw)
  bins_ne : cfg.bins ≠ 0
  /-- the first usable band starts within one tuning step above `fstart` -/
  first : ∃ c ∈ cfg.centers.head?, c < cfg.fstart + prop.usableBw / 2 + 10
  rising : cfg.centers.IsChain fun a b => a < b ∧ b ≤ a + prop.usableBw
  range : ∀ c ∈ cfg.centers, cfg.fstart + prop.usableBw / 2 ≤ c ∧ c ≤ prop.maxTunable
  /-- every usable band but the last ends below `fstop` -/
  below : ∀ c ∈ cfg.centers.dropLast, c + prop.usableBw / 2 < cfg.fstop
  /-- the last usable band reaches `fstop`, and starts below it unless it is the first -/
  last : ∃ c ∈ cfg.centers.getLast?, cfg.fstop ≤ c + prop.usableBw / 2 ∧
    (c < cfg.fstart + prop.usableBw / 2 + 10 ∨ c < cfg.fstop + prop.usableBw / 2)

/-- The centers of a plan's entries, seen from the end of the band: each but the last lies below
`b`, the last center wanted, and the last lies less than a step past `b`, unless it is `a`. -/
theorem planEntries_centers_below {prop : Profile} (a b size : ℕ) (hs : 0 < prop.usableBw)
    (hab : a ≤ b) (hb : b ≤ prop.maxTunable) :
    let C := (planEntries prop a b size).flatMap PlanEntry.centers
    (∀ c ∈ C.dropLast, c < b) ∧ ∀ c ∈ C.getLast?, c = a ∨ (a < b ∧ c < b + prop.usableBw) := by
  rcases planEntries_cases prop a b size with ⟨-, hE⟩ | ⟨hover, hE⟩
  · -- one run, whose last center is the first whole step at or past `b`
    have hreach := (ceil_steps_mul (b - a) hs).2
    simp only [hE, List.flatMap_cons, List.flatMap_nil, List.append_nil,
      PlanEntry.centers_run _ _ _ _ _ hs]
    refine ⟨fun c hc => ?_, fun c hc => ?_⟩
    · rw [← List.map_dropLast, List.range_succ, List.dropLast_concat] at hc
      obtain ⟨i, hi, rfl⟩ := List.mem_map.mp hc
      have hstep := Nat.mul_le_mul_right prop.usableBw (List.mem_range.mp hi)
      rw [Nat.succ_mul] at hstep
      omega
    · rw [getLast?_run, Option.mem_def, Option.some.injEq] at hc
      subst hc
      by_cases hlt : a < b
      · exact .inr ⟨hlt, by omega⟩
      · rw [Nat.div_eq_of_lt (by omega : b - a + prop.usableBw - 1 < prop.usableBw)]
        exact .inl (by omega)
  · -- the tunable part of the run, all below `b`, then `b` itself
    have hpast := tunable_run_below a b hs hab hb hover
    simp only [hE, List.flatMap_cons, List.flatMap_nil, List.append_nil,
      PlanEntry.centers_run _ _ _ _ _ hs, PlanEntry.centers_single]
    refine ⟨fun c hc => ?_, fun c hc => ?_⟩
    · rw [List.dropLast_concat] at hc
      have := (mem_run hc).2
      omega
    · rw [List.getLast?_concat, Option.mem_def, Option.some.injEq] at hc
      exact .inr ⟨by omega, by omega⟩

/-- The FFT size of a plan is a power of two the instrument accepts. -/
theorem plan_size_pow_two {fstart fstop : ℕ} {rbw : Double} {mode : RfeMode} {t : Tuning}
    (ht : tune fstart fstop rbw mode = .ok t) :
    ∃ k, min t.fftSizeWanted maxSamplesPerPacket = 2 ^ k ∧ 8 ≤ k ∧ k ≤ 15 := by
  obtain ⟨-, -, -, -, -, hwanted, hmin⟩ := tune_eq_ok ht
  obtain ⟨j, hj⟩ := fftSizeFor_pow_two t.profile.fullBw rbw
  rw [hwanted, hj] at hmin ⊢
  have hmin' : 2 ^ 8 ≤ 2 ^ j := hmin
  by_cases hle : 2 ^ j ≤ 2 ^ 15
  · refine ⟨j, min_eq_left hle, ?_, ?_⟩
    · exact (Nat.pow_le_pow_iff_right one_lt_two).mp hmin'
    · exact (Nat.pow_le_pow_iff_right one_lt_two).mp hle
  · exact ⟨15, min_eq_right (by unfold maxSamplesPerPacket; omega), by norm_num, le_refl 15⟩

/-- Every plan the planner returns is stitchable, for the profile of its mode. -/
theorem plan_stitchable {fstart fstop : ℕ} {rbw : Double} {mode : RfeMode} {cfg : SweepPlan}
    (h : plan fstart fstop rbw mode = .ok cfg) :
    ∃ prop k, Profile.forMode mode = .ok prop ∧ cfg.Stitchable prop k := by
  obtain ⟨t, ht, -, hfstart, hfstop, hsize, hrbw, hentries, -, hbins, hbins0⟩ := plan_eq_ok h
  obtain ⟨hp, hround, hfcstop, -, hmax, -, -⟩ := tune_eq_ok ht
  obtain ⟨k, hk, hk8, hk15⟩ := plan_size_pow_two ht
  have hprop := Profile.mem_of_forMode hp
  have hs := Profile.usableBw_pos hprop
  obtain ⟨-, hlo, hhi⟩ := roundUp_eq_some (Profile.tuningResolution_pos hprop) hround
  obtain ⟨-, -, -, -, -, hres, -⟩ := Profile.stitch_bounds hprop
  have hcenters : cfg.centers =
      (planEntries t.profile t.fcstart t.fcstop cfg.samplesPerPacket).flatMap PlanEntry.centers := by
    rw [SweepPlan.centers, hentries]
  obtain ⟨hhead, hrise, hrange, hreach⟩ :=
    planEntries_centers_span t.fcstart t.fcstop cfg.samplesPerPacket hs (by omega) hmax
  obtain ⟨hbelow, hlast⟩ :=
    planEntries_centers_below t.fcstart t.fcstop cfg.samplesPerPacket hs (by omega) hmax
  rw [← hcenters] at hhead hrise hrange hreach hbelow hlast
  rw [hres] at hhi
  refine ⟨t.profile, k, hp, ⟨hprop, hsize.trans hk, hk8, hk15, hrbw, hfstart ▸ hfstop ▸ hbins,
    hbins0, ⟨t.fcstart, hhead, by omega⟩, hrise, fun c hc => ?_, fun c hc => ?_, ?_⟩⟩
  · have := hrange c hc
    omega
  · -- a center below the last center wanted ends its usable band below `fstop`
    have hcb := hbelow c hc
    have hca := (hrange c (List.mem_of_mem_dropLast hc)).1
    omega
  · obtain ⟨c, hc, hbc⟩ := hreach
    refine ⟨c, hc, by omega, ?_⟩
    -- past the first center, the last center wanted is `fstop` less half the usable width
    obtain ⟨-, heven, -⟩ := Profile.stitch_bounds hprop
    rcases hlast c hc with rfl | ⟨hab, hcb⟩
    · exact .inl (by omega)
    · exact .inr (by omega)

/-! ## Whole bins -/

theorem floor_natCast_div (A B : ℕ) : ⌊(A : ℚ) / B⌋ = ((A / B : ℕ) : ℤ) := by
  rw [Rat.floor_natCast_div_natCast, Int.natCast_div]

theorem ceil_natCast_div (A : ℕ) {B : ℕ} (hB : 0 < B) :
    ⌈(A : ℚ) / B⌉ = (((A + B - 1) / B : ℕ) : ℤ) := by
  have hBq : (0 : ℚ) < B := by exact_mod_cast hB
  have hdiv := Nat.div_add_mod' (A + B - 1) B
  have hmod := Nat.mod_lt (A + B - 1) hB
  have hlo : (A + B - 1) / B * B < A + B := by omega
  have hhi : A ≤ (A + B - 1) / B * B := by omega
  rw [Int.ceil_eq_iff, Int.cast_natCast, sub_lt_iff_lt_add, div_add_one hBq.ne',
    lt_div_iff₀ hBq, div_le_iff₀ hBq]
  exact ⟨by exact_mod_cast hlo, by exact_mod_cast hhi⟩

theorem div_pow_two_eq (N F k : ℕ) : (N : ℚ) / (F / 2 ^ k) = ((N * 2 ^ k : ℕ) : ℚ) / F := by
  rw [div_div_eq_mul_div, Nat.cast_mul, Nat.cast_pow, Nat.cast_ofNat]

/-- Rounding the left edge down and the right edge up never loses a bin of the width between:
on bins `x * s / F`, `⌈w⌉ ≤ ⌈l + w⌉ - ⌊l⌋`. -/
theorem ceil_width_le (l w s : ℕ) {F : ℕ} (hF : 0 < F) :
    (w * s + F - 1) / F ≤ ((l + w) * s + F - 1) / F - l * s / F := by
  have h := @Nat.div_add_div_le_add_div (w * s + F - 1) (l * s) F
  have he : w * s + F - 1 + l * s = (l + w) * s + F - 1 := by rw [Nat.add_mul]; omega
  rw [he] at h
  omega

/-- Adding `b` to `a` adds at most `b` rounded up to `a` rounded down, in units of `F`. -/
theorem add_div_le_add_ceil (a b : ℕ) {F : ℕ} (hF : 0 < F) :
    (a + b) / F ≤ a / F + (b + F - 1) / F := by
  have h1 := Nat.div_add_mod a F
  have h2 := Nat.mod_lt a hF
  have h3 := Nat.div_add_mod (b + F - 1) F
  have h4 := Nat.mod_lt (b + F - 1) hF
  rw [Nat.div_le_iff_le_mul_add_pred hF, Nat.mul_add]
  omega

/-- A distance at most `w` above `n`, in bins `x * s / F`, is at most `w` rounded up above it. -/
theorem scaled_div_le {x n w s F : ℕ} (hF : 0 < F) (h : x ≤ n + w) :
    x * s / F ≤ n * s / F + (w * s + F - 1) / F :=
  calc x * s / F ≤ (n * s + w * s) / F :=
        Nat.div_le_div_right (by rw [← Nat.add_mul]; exact Nat.mul_le_mul_right s h)
    _ ≤ n * s / F + (w * s + F - 1) / F := add_div_le_add_ceil _ _ hF

/-- A tuning at most one usable width above another starts at most `usableBinCount` bins after
it. -/
theorem SweepPlan.startBin_le_add (cfg : SweepPlan) (prop : Profile) {c c' : ℕ}
    (h : c' ≤ c + prop.usableBw) (hF : 0 < prop.fullBw) :
    cfg.startBin prop c' ≤ cfg.startBin prop c + cfg.usableBinCount prop :=
  scaled_div_le hF (by omega)

/-- Intervals `[o, o + w)` from a list of starts, each at most `w` past the one before, cover
everything from the first start to `w` past the last. -/
theorem exists_mem_covering {w : ℕ} (l : List ℕ) :
    ∀ (a j : ℕ), (a :: l).IsChain (fun o o' => o' ≤ o + w) → a ≤ j →
      (∀ o ∈ (a :: l).getLast?, j < o + w) → ∃ o ∈ a :: l, o ≤ j ∧ j < o + w := by
  induction l with
  | nil =>
    intro a j _ hj hlast
    exact ⟨a, List.mem_singleton_self a, hj, hlast a (by simp)⟩
  | cons b l ih =>
    intro a j hchain hj hlast
    -- either `j` falls in the first interval, or past it, where the next one starts no later
    by_cases hja : j < a + w
    · exact ⟨a, List.mem_cons_self, hj, hja⟩
    · obtain ⟨hab, hrest⟩ := List.isChain_cons_cons.mp hchain
      obtain ⟨o, ho, hoj⟩ := ih b j hrest (by omega)
        (fun o ho => hlast o (by rwa [List.getLast?_cons_cons]))
      exact ⟨o, List.mem_cons_of_mem a ho, hoj⟩

/-! ## Bins in binary64 -/

theorem countOf_of_denotes {x : Double} {n : ℕ} (hx : x.Denotes ((n : ℤ) : ℚ)) (hn : n < 2 ^ 64) :
    Profile.countOf x = n := by
  unfold Profile.countOf Double.toUInt64
  rw [toIntSat_denotes_int hx]
  omega

theorem sub_denotes_nat {x y : Double} {m n : ℕ} (hx : x.Denotes m) (hy : y.Denotes n)
    (h : n ≤ m) (hm : m < 2 ^ 53) : (x - y).Denotes ((m - n : ℕ) : ℚ) := by
  have hrep := representable_natCast (lt_of_le_of_lt (Nat.sub_le m n) hm)
  rw [Nat.cast_sub h] at hrep ⊢
  exact sub_denotes hx hy hrep

/-- The left edge of the usable band of a tuning to `c`, measured from `f`, is computed exactly
when it is not below `f`. -/
theorem leftEdge_denotes (c U f : ℕ) (hU : U % 2 = 0) (hU53 : U < 2 ^ 53) (hc : U / 2 + f ≤ c)
    (hc53 : c < 2 ^ 53) :
    (Double.ofNat c - Double.ofNat U / 2 - Double.ofNat f).Denotes ((c - U / 2 - f : ℕ) : ℚ) := by
  have h2 : (2 : Double).Denotes 2 := by
    have h := ofNat_denotes_of_lt (by norm_num : 2 < 2 ^ 53)
    rwa [Nat.cast_ofNat] at h
  -- an even width halves exactly
  have hhalf : (Double.ofNat U / 2).Denotes ((U / 2 : ℕ) : ℚ) := by
    have hrep := representable_natCast (lt_of_le_of_lt (Nat.div_le_self U 2) (by omega))
    rw [Nat.cast_div (Nat.dvd_of_mod_eq_zero hU) two_ne_zero, Nat.cast_ofNat] at hrep ⊢
    exact div_denotes (ofNat_denotes_of_lt hU53) h2 two_ne_zero hrep
  exact sub_denotes_nat (sub_denotes_nat (ofNat_denotes_of_lt hc53) hhalf (by omega) hc53)
    (ofNat_denotes_of_lt (by omega)) (by omega) (by omega)

/-! ## Placing a packet -/

/-- A capture tuned to `fc` places a data packet of the planned size at the start bin its
binary64 arithmetic gives, writing its usable bins up to the end of the buffer, or refuses the
packet when that bin is past the buffer. -/
theorem Capture.place_offset {st : Capture} {p : SweepPlan} {d : IfData} {len : ℕ} {fc : Double}
    {o : ℕ} (hf : st.fcenter = some fc) (hsize : st.analyzer.size = p.samplesPerPacket)
    (hlen : d.samples.length = p.samplesPerPacket)
    (ho : ((fc - Double.ofNat st.profile.usableBw / 2 - Double.ofNat p.fstart) /
      p.rbw).floor.toInt64 = o) :
    (st.place p d len).map (fun pl => (pl.offset, pl.count)) =
      if o < len then
        .ok (o, min ((st.profile.usableBins p.rbw d.spectralInversion).2 -
          (st.profile.usableBins p.rbw d.spectralInversion).1) (len - o))
      else .error (.spectrumOutOfBounds o len) := by
  -- the transform accepts a packet of the analyzer's size
  obtain ⟨arr, harr, -⟩ := st.analyzer.process_of_length (hlen.trans hsize.symm)
  unfold Capture.place
  simp only [hf, hlen, ne_eq, not_true_eq_false, if_false, harr, liftLink, ho]
  by_cases hlt : o < len
  · have hin : ¬((o : ℤ) < 0 ∨ o ≥ len) := by omega
    rw [if_pos hlt]
    simp only [Int.toNat_natCast, if_neg hin]
    rfl
  · have hout : (o : ℤ) < 0 ∨ (o : ℤ).toNat ≥ len := by omega
    rw [if_neg hlt]
    simp only [if_pos hout]
    rfl

section Stitchable

variable {cfg : SweepPlan} {prop : Profile} {k : ℕ} (hS : cfg.Stitchable prop k)
include hS

theorem SweepPlan.Stitchable.scaled_lt {N : ℕ} (hN : N < 2 ^ 38) : N * 2 ^ k < 2 ^ 53 :=
  calc N * 2 ^ k ≤ N * 2 ^ 15 := Nat.mul_le_mul_left N (Nat.pow_le_pow_right two_pos hS.size_le)
    _ < 2 ^ 38 * 2 ^ 15 := Nat.mul_lt_mul_of_pos_right hN (by norm_num)
    _ = 2 ^ 53 := by norm_num

/-- The resolution of a stitchable plan is held exactly: `fullBw / 2^k`. -/
theorem SweepPlan.Stitchable.rbw_denotes : cfg.rbw.Denotes (prop.fullBw / 2 ^ k) := by
  have hF := (Profile.stitch_bounds hS.profile).1
  have hk := hS.size_le
  have hnum : (Double.ofNat prop.fullBw).Denotes prop.fullBw :=
    ofNat_denotes_of_lt (by rw [hF]; norm_num)
  -- `fullBw` is `1953125 * 2^5`, so the resolution is a mantissa times a power of two
  have hrep : Representable ((prop.fullBw : ℚ) / 2 ^ k) := by
    have h := representable_int_div (by norm_num : 1953125 < 2 ^ 53) (by norm_num : 5 ≤ 971)
      (by norm_num : (62500000 : ℤ).natAbs = 1953125 * 2 ^ 5) k (by omega)
    rw [hF, Nat.cast_ofNat]
    rwa [Int.cast_ofNat] at h
  rw [hS.rbw, hS.size]
  exact div_denotes hnum (ofNat_denotes_two_pow k (by omega)) (by positivity) hrep

/-- A whole number of hertz below `2^38`, divided by the resolution in binary64, is the exact
number of bins: its floor, ceiling and count are those of `N * 2^k / fullBw`. -/
theorem SweepPlan.Stitchable.div_rbw {x : Double} {N : ℕ} (hx : x.Denotes N) (hN : N < 2 ^ 38) :
    (x / cfg.rbw).floor.Denotes ((N * 2 ^ k / prop.fullBw : ℕ) : ℤ) ∧
      (x / cfg.rbw).ceil.Denotes (((N * 2 ^ k + prop.fullBw - 1) / prop.fullBw : ℕ) : ℤ) ∧
      Profile.countOf (x / cfg.rbw) = N * 2 ^ k / prop.fullBw := by
  have hF := (Profile.stitch_bounds hS.profile).1
  have hA := hS.scaled_lt hN
  have hB : 0 < prop.fullBw := by rw [hF]; norm_num
  have hB53 : prop.fullBw ≤ 2 ^ 53 := by rw [hF]; norm_num
  have hb : (prop.fullBw : ℚ) / 2 ^ k ≠ 0 := div_ne_zero (by exact_mod_cast hB.ne') (by positivity)
  have hab := div_pow_two_eq N prop.fullBw k
  have hy := hS.rbw_denotes
  refine ⟨?_, ?_, ?_⟩
  · have h := floor_div_denotes hx hy hb hA hB hB53 hab
    rwa [hab, floor_natCast_div] at h
  · have h := ceil_div_denotes hx hy hb hA hB hB53 hab
    rwa [hab, ceil_natCast_div _ hB] at h
  · unfold Profile.countOf Double.toUInt64
    rw [toIntSat_div hx hy hb hA hB hB53 hab, hab, floor_natCast_div]
    have hq := lt_of_le_of_lt (Nat.div_le_self (N * 2 ^ k) prop.fullBw) hA
    generalize N * 2 ^ k / prop.fullBw = q at hq ⊢
    omega

/-- The buffer of a stitchable plan holds the whole bins of `[fstart, fstop)`. -/
theorem SweepPlan.Stitchable.bins_eq : cfg.bins = (cfg.fstop - cfg.fstart) * 2 ^ k / prop.fullBw := by
  obtain ⟨-, -, -, -, -, -, hmax⟩ := Profile.stitch_bounds hS.profile
  obtain ⟨c, hc, hreach, -⟩ := hS.last
  have hc' := (hS.range c (List.mem_of_mem_getLast? hc)).2
  have hU := (hS.range c (List.mem_of_mem_getLast? hc)).1
  have hD : cfg.fstop - cfg.fstart < 2 ^ 38 := by
    rw [hmax] at hc'
    have : prop.usableBw / 2 ≤ c := by omega
    norm_num
    omega
  rw [hS.bins]
  exact (hS.div_rbw (ofNat_denotes_of_lt (by omega)) hD).2.2

/-- The start bin a capture computes for a planned center, in binary64, is the exact one. -/
theorem SweepPlan.Stitchable.startBin_toInt64 {c : ℕ} (hc : c ∈ cfg.centers) :
    ((Double.ofNat c - Double.ofNat prop.usableBw / 2 - Double.ofNat cfg.fstart) /
      cfg.rbw).floor.toInt64 = cfg.startBin prop c := by
  obtain ⟨hF, heven, -, hLR, hR, -, hmax⟩ := Profile.stitch_bounds hS.profile
  obtain ⟨hlo, hhi⟩ := hS.range c hc
  rw [hmax] at hhi
  have hN : c - prop.usableBw / 2 - cfg.fstart < 2 ^ 38 := by norm_num; omega
  have hedge := leftEdge_denotes c prop.usableBw cfg.fstart heven (by norm_num; omega) (by omega)
    (by norm_num; omega)
  have hfloor := (hS.div_rbw hedge hN).1
  have hq := lt_of_le_of_lt (Nat.div_le_self _ prop.fullBw) (hS.scaled_lt hN)
  unfold Double.toInt64
  rw [toIntSat_denotes_int hfloor, SweepPlan.startBin, hS.size]
  generalize (c - prop.usableBw / 2 - cfg.fstart) * 2 ^ k / prop.fullBw = q at hq ⊢
  omega

/-- A frequency inside the full band, counted in bins of the plan's resolution in binary64: its
floor is the exact number of whole bins below it. -/
theorem SweepPlan.Stitchable.countOf_floor_edge {l : ℕ} (hl : l ≤ prop.fullBw) :
    Profile.countOf (Double.ofNat l / cfg.rbw).floor = l * 2 ^ k / prop.fullBw := by
  obtain ⟨hF, -⟩ := Profile.stitch_bounds hS.profile
  have hl53 := hS.scaled_lt (by omega : l < 2 ^ 38)
  have hlq := Nat.div_le_self (l * 2 ^ k) prop.fullBw
  exact countOf_of_denotes (hS.div_rbw (ofNat_denotes_of_lt (by omega)) (by omega)).1 (by omega)

/-- A frequency inside the full band, counted in bins in binary64: its ceiling is the exact
number of bins that reach it. -/
theorem SweepPlan.Stitchable.countOf_ceil_edge {r : ℕ} (hr : r ≤ prop.fullBw) :
    Profile.countOf (Double.ofNat r / cfg.rbw).ceil = (r * 2 ^ k + prop.fullBw - 1) / prop.fullBw := by
  obtain ⟨hF, -⟩ := Profile.stitch_bounds hS.profile
  have hr53 := hS.scaled_lt (by omega : r < 2 ^ 38)
  have hrq := Nat.div_le_self (r * 2 ^ k + prop.fullBw - 1) prop.fullBw
  exact countOf_of_denotes (hS.div_rbw (ofNat_denotes_of_lt (by omega)) (by omega)).2.1 (by omega)

/-- The usable bins of a packet span at least the usable width in bins, rounded up, with or
without spectral inversion. -/
theorem SweepPlan.Stitchable.width_le (inverted : Bool) :
    cfg.usableBinCount prop ≤
      (prop.usableBins cfg.rbw inverted).2 - (prop.usableBins cfg.rbw inverted).1 := by
  obtain ⟨hF, -, -, hLR, hR, -, -⟩ := Profile.stitch_bounds hS.profile
  have hFpos : 0 < prop.fullBw := by omega
  rw [SweepPlan.usableBinCount, hS.size]
  cases inverted
  · simp only [Profile.usableBins, Bool.false_eq_true, if_false]
    rw [hS.countOf_floor_edge (by omega), hS.countOf_ceil_edge hR, ← hLR]
    exact ceil_width_le _ _ _ hFpos
  · -- mirrored, the usable band runs from `fullBw - usableRight` to `fullBw - usableLeft`
    simp only [Profile.usableBins, if_true]
    rw [hS.countOf_floor_edge (by omega), hS.countOf_ceil_edge (by omega),
      show prop.fullBw - prop.usableLeft = prop.fullBw - prop.usableRight + prop.usableBw by omega]
    exact ceil_width_le _ _ _ hFpos

/-! ## Start bins of the planned tunings -/

/-- The first tuning starts at the first bin. -/
theorem SweepPlan.Stitchable.startBin_head : ∃ c ∈ cfg.centers.head?, cfg.startBin prop c = 0 := by
  obtain ⟨hF, -⟩ := Profile.stitch_bounds hS.profile
  obtain ⟨c, hc, hlt⟩ := hS.first
  refine ⟨c, hc, ?_⟩
  -- less than one tuning step of 10 Hz is less than one bin
  have hle : (c - prop.usableBw / 2 - cfg.fstart) * 2 ^ k ≤ 9 * 2 ^ 15 :=
    Nat.mul_le_mul (by omega) (Nat.pow_le_pow_right two_pos hS.size_le)
  rw [SweepPlan.startBin, hS.size, hF]
  exact Nat.div_eq_of_lt (by omega)

/-- Every tuning but the last starts inside the buffer: its usable band ends below `fstop`, and
the usable width is more than one bin. -/
theorem SweepPlan.Stitchable.startBin_lt_bins {c : ℕ} (hc : c ∈ cfg.centers.dropLast) :
    cfg.startBin prop c < cfg.bins := by
  obtain ⟨hF, heven, hU, -⟩ := Profile.stitch_bounds hS.profile
  have hbelow := hS.below c hc
  have hlo := (hS.range c (List.mem_of_mem_dropLast hc)).1
  have hUs : prop.fullBw ≤ prop.usableBw * 2 ^ k :=
    calc prop.fullBw ≤ 10000000 * 2 ^ 8 := by rw [hF]; norm_num
      _ ≤ prop.usableBw * 2 ^ k := Nat.mul_le_mul hU (Nat.pow_le_pow_right two_pos hS.size_ge)
  have hle : (c - prop.usableBw / 2 - cfg.fstart) * 2 ^ k + prop.usableBw * 2 ^ k ≤
      (cfg.fstop - cfg.fstart) * 2 ^ k := by
    rw [← Nat.add_mul]
    exact Nat.mul_le_mul_right _ (by omega)
  rw [hS.bins_eq, SweepPlan.startBin, hS.size]
  calc (c - prop.usableBw / 2 - cfg.fstart) * 2 ^ k / prop.fullBw
      < (c - prop.usableBw / 2 - cfg.fstart) * 2 ^ k / prop.fullBw + 1 := Nat.lt_succ_self _
    _ = ((c - prop.usableBw / 2 - cfg.fstart) * 2 ^ k + prop.fullBw) / prop.fullBw :=
        (Nat.add_div_right _ (by omega)).symm
    _ ≤ (cfg.fstop - cfg.fstart) * 2 ^ k / prop.fullBw := Nat.div_le_div_right (by omega)

/-- The last tuning starts at most at the end of the buffer, and its usable bins reach past
the end. -/
theorem SweepPlan.Stitchable.startBin_last :
    ∃ c ∈ cfg.centers.getLast?, cfg.startBin prop c ≤ cfg.bins ∧
      cfg.bins ≤ cfg.startBin prop c + cfg.usableBinCount prop := by
  obtain ⟨hF, heven, -⟩ := Profile.stitch_bounds hS.profile
  obtain ⟨c, hc, hreach, hstart⟩ := hS.last
  have hlo := (hS.range c (List.mem_of_mem_getLast? hc)).1
  -- the band holds at least one bin, so it is wider than the first tuning's offset
  have hD : c - prop.usableBw / 2 - cfg.fstart ≤ cfg.fstop - cfg.fstart := by
    rcases hstart with h | h
    · have hbins := hS.bins_ne
      rw [hS.bins_eq] at hbins
      have hwide : prop.fullBw ≤ (cfg.fstop - cfg.fstart) * 2 ^ k :=
        not_lt.mp fun hlt => hbins (Nat.div_eq_of_lt hlt)
      have hpow := Nat.mul_le_mul_left (cfg.fstop - cfg.fstart)
        (Nat.pow_le_pow_right two_pos hS.size_le)
      omega
    · omega
  refine ⟨c, hc, ?_, ?_⟩
  · rw [hS.bins_eq, SweepPlan.startBin, hS.size]
    exact Nat.div_le_div_right (Nat.mul_le_mul_right _ hD)
  · rw [hS.bins_eq, SweepPlan.startBin, SweepPlan.usableBinCount, hS.size]
    exact scaled_div_le (by omega) (by omega)

end Stitchable

/-! ## Stitching a planned sweep -/

/-- Stitching a planned sweep. For every plan the planner returns, a capture tuned to a planned
center `c`, given a data packet of the planned size, places its usable bins at `startBin c`, up
to the end of the buffer, or refuses the packet as out of bounds when `startBin c` is not inside
the buffer. Every tuning but the last starts inside the buffer, the last at its end at most, so
only the last tuning can be refused; and the usable bins of the tunings, whatever their spectral
inversion, cover every bin of the buffer. -/
theorem stitch_planned_centers {fstart fstop : ℕ} {rbw : Double} {mode : RfeMode}
    {cfg : SweepPlan} (h : plan fstart fstop rbw mode = .ok cfg) :
    ∃ prop, Profile.forMode mode = .ok prop ∧
      (∀ c ∈ cfg.centers, ∀ (st : Capture) (d : IfData), st.profile = prop →
        st.analyzer.size = cfg.samplesPerPacket → st.fcenter = some (Double.ofNat c) →
        d.samples.length = cfg.samplesPerPacket →
        (st.place cfg d cfg.bins).map (fun pl => (pl.offset, pl.count)) =
          if cfg.startBin prop c < cfg.bins then
            .ok (cfg.startBin prop c, min ((prop.usableBins cfg.rbw d.spectralInversion).2 -
              (prop.usableBins cfg.rbw d.spectralInversion).1) (cfg.bins - cfg.startBin prop c))
          else .error (.spectrumOutOfBounds (cfg.startBin prop c) cfg.bins)) ∧
      (∀ c ∈ cfg.centers.dropLast, cfg.startBin prop c < cfg.bins) ∧
      (∀ c ∈ cfg.centers.getLast?, cfg.startBin prop c ≤ cfg.bins) ∧
      ∀ j < cfg.bins, ∃ c ∈ cfg.centers, cfg.startBin prop c ≤ j ∧
        ∀ inverted, j < cfg.startBin prop c + ((prop.usableBins cfg.rbw inverted).2 -
          (prop.usableBins cfg.rbw inverted).1) := by
  obtain ⟨prop, k, hp, hS⟩ := plan_stitchable h
  have hF : 0 < prop.fullBw := by rw [(Profile.stitch_bounds hS.profile).1]; norm_num
  obtain ⟨cl, hcl, hlast, hcover⟩ := hS.startBin_last
  refine ⟨prop, hp, fun c hc st d hprop hsize hf hlen => ?_, fun c hc => hS.startBin_lt_bins hc,
    fun c hc => ?_, fun j hj => ?_⟩
  · subst hprop
    exact Capture.place_offset hf hsize hlen (hS.startBin_toInt64 hc)
  · rw [hcl, Option.mem_def, Option.some.injEq] at hc
    exact hc ▸ hlast
  · -- the start bins begin at zero, rise by at most `usableBinCount` and reach past the end
    obtain ⟨c0, hc0, hzero⟩ := hS.startBin_head
    have hchain : (cfg.centers.map (cfg.startBin prop)).IsChain
        fun o o' => o' ≤ o + cfg.usableBinCount prop :=
      List.isChain_map _ |>.mpr (hS.rising.imp fun _ _ hab => cfg.startBin_le_add prop hab.2 hF)
    cases hcen : cfg.centers with
    | nil => simp [hcen] at hc0
    | cons a l =>
      rw [hcen, List.head?_cons, Option.mem_def, Option.some.injEq] at hc0
      subst hc0
      rw [hcen, List.map_cons] at hchain
      obtain ⟨o, ho, hoj, hjo⟩ := exists_mem_covering _ _ j hchain (by omega) fun o ho => by
        rw [← List.map_cons, List.getLast?_map, ← hcen, hcl, Option.map_some, Option.mem_def,
          Option.some.injEq] at ho
        omega
      rw [← List.map_cons] at ho
      obtain ⟨c, hc, rfl⟩ := List.mem_map.mp ho
      exact ⟨c, hcen ▸ hc, hoj, fun inverted => lt_of_lt_of_le hjo
        (Nat.add_le_add_left (hS.width_le inverted) _)⟩

/-- The band from 2400 MHz to 2410.0001 MHz in the narrow mode at 100 kHz: a buffer of 163 bins
and two tunings, the second starting at bin 163, the end of the buffer, where a capture refuses
its packet. -/
theorem stitch_planned_centers_band_end :
    ∃ cfg, plan 2400000000 2410000100 100000 .shn = .ok cfg ∧ cfg.bins = 163 ∧
      cfg.centers = [2405000000, 2415000000] ∧ cfg.startBin Profile.shn 2415000000 = 163 ∧
      ∀ (st : Capture) (d : IfData), st.profile = Profile.shn →
        st.analyzer.size = cfg.samplesPerPacket → st.fcenter = some (Double.ofNat 2415000000) →
        d.samples.length = cfg.samplesPerPacket →
        (st.place cfg d cfg.bins).map (fun pl => (pl.offset, pl.count)) =
          .error (.spectrumOutOfBounds 163 163) := by
  have hv : (plan 2400000000 2410000100 100000 .shn).toOption.map
      (fun cfg => (cfg.bins, cfg.centers, cfg.fstart, cfg.samplesPerPacket)) =
      some (163, [2405000000, 2415000000], 2400000000, 1024) := by
    decide +kernel
  cases hplan : plan 2400000000 2410000100 100000 .shn with
  | error e => simp [hplan, Except.toOption] at hv
  | ok cfg =>
    simp only [hplan, Except.toOption, Option.map_some, Option.some.injEq, Prod.mk.injEq] at hv
    obtain ⟨hbins, hcenters, hfstart, hsize⟩ := hv
    obtain ⟨prop, hp, hplace, -⟩ := stitch_planned_centers hplan
    have hprop : prop = Profile.shn := by
      have hshn : Profile.forMode .shn = .ok Profile.shn := rfl
      rw [hshn] at hp
      exact (Except.ok.inj hp).symm
    subst hprop
    have hend : cfg.startBin Profile.shn 2415000000 = 163 := by
      rw [SweepPlan.startBin, hfstart, hsize]
      rfl
    refine ⟨cfg, rfl, hbins, hcenters, hend, fun st d hst hsize' hf hlen => ?_⟩
    rw [hplace 2415000000 (by simp [hcenters]) st d hst hsize' hf hlen, hend, hbins]
    rfl

end SweptSpectrum.Sweep
