import Mathlib.Data.List.Range
import Mathlib.Data.List.Chain
import SweptSpectrum.Sweep.Plan
import SweptSpectrum.Proofs.Except

/-!
# Sweep plans tile the requested band

A plan tunes the instrument to one run of centers `usableBw` apart and, when that run would
pass the highest tunable frequency, once more to the last center wanted. The main statement,
`plan_tilesBand`: every plan the planner returns has one or two entries of that shape, its
centers rise by at most the usable width (by exactly it inside an entry), the first usable
interval starts within one tuning step above `fstart`, every center is tunable, the last usable
interval reaches `fstop`, and the sweep sends one packet per center, of a power-of-two FFT
size the instrument accepts.
-/

namespace SweptSpectrum.Sweep

/-- What a plan promises about its tunings, for the profile `prop` of its mode. -/
structure SweepPlan.TilesBand (cfg : SweepPlan) (prop : Profile) : Prop where
  entry_count : cfg.entries.length = 1 ∨ cfg.entries.length = 2
  entry_shape : ∀ e ∈ cfg.entries, e.fstep = prop.usableBw ∧
    e.fcstop = e.fcstart + (e.tunings - 1) * e.fstep ∧
    e.samplesPerPacket = cfg.samplesPerPacket ∧ e.packetsPerBlock = 1
  entry_step : ∀ e ∈ cfg.entries, e.centers.IsChain fun a b => b = a + prop.usableBw
  rising : cfg.centers.IsChain fun a b => a < b ∧ b ≤ a + prop.usableBw
  packets : cfg.centers.length = cfg.packetTotal ∧ 1 ≤ cfg.packetTotal
  tunable : ∀ c ∈ cfg.centers, prop.minTunable ≤ c ∧ c ≤ prop.maxTunable
  first : ∃ c ∈ cfg.centers.head?, c % prop.tuningResolution = 0 ∧
    cfg.fstart + prop.usableBw / 2 ≤ c ∧
    c < cfg.fstart + prop.usableBw / 2 + prop.tuningResolution
  last : ∃ c ∈ cfg.centers.getLast?, cfg.fstop ≤ c + prop.usableBw / 2
  fft_size : (∃ k, cfg.samplesPerPacket = 2 ^ k) ∧
    minSamplesPerPacket ≤ cfg.samplesPerPacket ∧ cfg.samplesPerPacket ≤ maxSamplesPerPacket
  rbw : cfg.rbw = Double.ofNat prop.fullBw / Double.ofNat cfg.samplesPerPacket

/-! ## Profiles -/

theorem Profile.mem_of_forMode {mode : RfeMode} {p : Profile}
    (h : Profile.forMode mode = .ok p) : p ∈ Profile.all := by
  unfold Profile.forMode at h
  split at h
  · rename_i q hq
    cases h
    exact List.mem_of_find?_eq_some hq
  · cases h

theorem Profile.usableBw_pos {p : Profile} (h : p ∈ Profile.all) : 0 < p.usableBw := by
  simp only [Profile.all, List.mem_cons, List.not_mem_nil, or_false] at h
  rcases h with rfl | rfl <;> decide

theorem Profile.tuningResolution_pos {p : Profile} (h : p ∈ Profile.all) :
    0 < p.tuningResolution := by
  simp only [Profile.all, List.mem_cons, List.not_mem_nil, or_false] at h
  rcases h with rfl | rfl <;> decide

/-! ## Rounding to the tuning grid and counting steps -/

theorem roundUp_eq_some {v s r : Nat} (hs : 0 < s) (h : roundUp v s = some r) :
    r % s = 0 ∧ v ≤ r ∧ r < v + s := by
  unfold roundUp at h
  dsimp only at h
  split at h
  · cases h
    have hdiv := Nat.div_add_mod (v + s - 1) s
    have hmod := Nat.mod_lt (v + s - 1) hs
    rw [Nat.mul_comm] at hdiv
    exact ⟨Nat.mul_mod_left _ _, by omega, by omega⟩
  · cases h

/-- Whole steps of `s` that reach past `d`: `⌈d / s⌉ * s` lies in `[d, d + s)`. -/
theorem ceil_steps_mul (d : Nat) {s : Nat} (hs : 0 < s) :
    d ≤ (d + s - 1) / s * s ∧ (d + s - 1) / s * s < d + s := by
  have hdiv := Nat.div_add_mod (d + s - 1) s
  have hmod := Nat.mod_lt (d + s - 1) hs
  rw [Nat.mul_comm] at hdiv
  omega

/-- Whole steps of `s` that stay within `d`: `⌊d / s⌋ * s` lies in `(d - s, d]`. -/
theorem floor_steps_mul (d : Nat) {s : Nat} (hs : 0 < s) : d / s * s ≤ d ∧ d < d / s * s + s := by
  have hdiv := Nat.div_add_mod d s
  have hmod := Nat.mod_lt d hs
  rw [Nat.mul_comm] at hdiv
  omega

/-- A distance within `k` whole steps needs at most `k` of them. -/
theorem ceil_steps_le (d : Nat) {s k : Nat} (hs : 0 < s) (h : d ≤ k * s) : (d + s - 1) / s ≤ k := by
  have hlt : d + s - 1 < (k + 1) * s := by rw [Nat.succ_mul]; omega
  exact Nat.lt_succ_iff.mp ((Nat.div_lt_iff_lt_mul hs).mpr hlt)

/-! ## Runs of centers -/

theorem PlanEntry.tunings_run (a k s n b : Nat) (hs : 0 < s) :
    (⟨a, a + k * s, s, n, b⟩ : PlanEntry).tunings = k + 1 := by
  simp only [PlanEntry.tunings]
  split
  · rename_i h
    have hk : k * s = 0 := by omega
    have hk0 : k = 0 := (Nat.mul_eq_zero.mp hk).resolve_right (Nat.pos_iff_ne_zero.mp hs)
    simp [hk0]
  · simp [Nat.mul_div_cancel _ hs]

theorem PlanEntry.centers_run (a k s n b : Nat) (hs : 0 < s) :
    (⟨a, a + k * s, s, n, b⟩ : PlanEntry).centers = (List.range (k + 1)).map (a + · * s) := by
  simp only [PlanEntry.centers, PlanEntry.tunings_run a k s n b hs]

theorem PlanEntry.centers_single (c s n b : Nat) : (⟨c, c, s, n, b⟩ : PlanEntry).centers = [c] := by
  simp [PlanEntry.centers, PlanEntry.tunings]

/-- Consecutive centers of a run are one step apart. -/
theorem isChain_run (a k s : Nat) :
    ((List.range (k + 1)).map (a + · * s)).IsChain fun x y => y = x + s := by
  rw [List.isChain_map, List.isChain_range_succ]
  intro m _
  rw [Nat.succ_mul]
  omega

theorem mem_run {a k s c : Nat} (h : c ∈ (List.range (k + 1)).map (a + · * s)) :
    a ≤ c ∧ c ≤ a + k * s := by
  obtain ⟨i, hi, rfl⟩ := List.mem_map.mp h
  have hik : i * s ≤ k * s := Nat.mul_le_mul_right s (Nat.lt_succ_iff.mp (List.mem_range.mp hi))
  omega

theorem head?_run (a k s : Nat) : ((List.range (k + 1)).map (a + · * s)).head? = some a := by
  simp [List.range_succ_eq_map]

theorem getLast?_run (a k s : Nat) :
    ((List.range (k + 1)).map (a + · * s)).getLast? = some (a + k * s) := by
  simp [List.range_succ]

/-- A run entry keeps its promises: it ends a whole number of steps after its start, and its
centers are one step apart. -/
theorem PlanEntry.run_shape (a k s size : Nat) (hs : 0 < s) :
    let e : PlanEntry := ⟨a, a + k * s, s, size, 1⟩
    e.fcstop = e.fcstart + (e.tunings - 1) * e.fstep ∧
      e.centers.IsChain fun x y => y = x + s := by
  refine ⟨?_, ?_⟩
  · simp only [PlanEntry.tunings_run a k s size 1 hs, Nat.add_sub_cancel]
  · rw [PlanEntry.centers_run a k s size 1 hs]
    exact isChain_run a k s

/-! ## The entries of a plan -/

/-- The entries for first center `a` and last center wanted `b`: the run of whole steps that
reaches `b` when it stays tunable, else the tunable part of that run and a lone center at `b`. -/
theorem planEntries_cases (prop : Profile) (a b size : Nat) :
    (a + (b - a + prop.usableBw - 1) / prop.usableBw * prop.usableBw ≤ prop.maxTunable ∧
      planEntries prop a b size =
        [⟨a, a + (b - a + prop.usableBw - 1) / prop.usableBw * prop.usableBw, prop.usableBw,
          size, 1⟩]) ∨
    (prop.maxTunable < a + (b - a + prop.usableBw - 1) / prop.usableBw * prop.usableBw ∧
      planEntries prop a b size =
        [⟨a, a + (prop.maxTunable - a) / prop.usableBw * prop.usableBw, prop.usableBw, size, 1⟩,
         ⟨b, b, prop.usableBw, size, 1⟩]) := by
  unfold planEntries
  dsimp only
  split
  · exact .inl ⟨by assumption, rfl⟩
  · exact .inr ⟨by omega, rfl⟩

theorem planEntries_runs (prop : Profile) (a b size : Nat) :
    ∀ e ∈ planEntries prop a b size, ∃ c k, e = ⟨c, c + k * prop.usableBw, prop.usableBw, size, 1⟩ := by
  intro e he
  rcases planEntries_cases prop a b size with ⟨-, hE⟩ | ⟨-, hE⟩ <;>
    simp only [hE, List.mem_cons, List.not_mem_nil, or_false] at he
  · exact ⟨a, _, he⟩
  · rcases he with rfl | rfl
    · exact ⟨a, _, rfl⟩
    · exact ⟨b, 0, by simp⟩

/-- When the run that reaches `b` would pass the highest tunable frequency, its tunable part
ends below `b`. -/
theorem tunable_run_below {prop : Profile} (a b : Nat) (hs : 0 < prop.usableBw)
    (hab : a ≤ b) (hb : b ≤ prop.maxTunable)
    (hover : prop.maxTunable < a + (b - a + prop.usableBw - 1) / prop.usableBw * prop.usableBw) :
    a + (prop.maxTunable - a) / prop.usableBw * prop.usableBw < b := by
  obtain ⟨hfloor, -⟩ := floor_steps_mul (prop.maxTunable - a) hs
  by_contra hle
  have := ceil_steps_le (b - a) hs (by omega :
    b - a ≤ (prop.maxTunable - a) / prop.usableBw * prop.usableBw)
  have := Nat.mul_le_mul_right prop.usableBw this
  omega

/-- The centers of a plan's entries start at `a`, rise by at most one usable width, stay
tunable and reach `b`. -/
theorem planEntries_centers_span {prop : Profile} (a b size : Nat) (hs : 0 < prop.usableBw)
    (hab : a ≤ b) (hb : b ≤ prop.maxTunable) :
    let C := (planEntries prop a b size).flatMap PlanEntry.centers
    C.head? = some a ∧ (C.IsChain fun x y => x < y ∧ y ≤ x + prop.usableBw) ∧
      (∀ c ∈ C, a ≤ c ∧ c ≤ prop.maxTunable) ∧ ∃ c ∈ C.getLast?, b ≤ c := by
  have rise : ∀ k, ((List.range (k + 1)).map (a + · * prop.usableBw)).IsChain
      fun x y => x < y ∧ y ≤ x + prop.usableBw :=
    fun k => (isChain_run a k prop.usableBw).imp fun x y hxy => by omega
  rcases planEntries_cases prop a b size with ⟨hfit, hE⟩ | ⟨hover, hE⟩
  · -- one run, whose last center is the first whole step at or past `b`
    have hreach := (ceil_steps_mul (b - a) hs).1
    simp only [hE, List.flatMap_cons, List.flatMap_nil, List.append_nil,
      PlanEntry.centers_run _ _ _ _ _ hs]
    refine ⟨head?_run _ _ _, rise _, fun c hc => ?_, _, getLast?_run _ _ _, by omega⟩
    have := mem_run hc
    omega
  · -- the tunable part of the run, then `b` itself, less than one step past its end
    obtain ⟨hfloor, hnext⟩ := floor_steps_mul (prop.maxTunable - a) hs
    have hpast := tunable_run_below a b hs hab hb hover
    simp only [hE, List.flatMap_cons, List.flatMap_nil, List.append_nil,
      PlanEntry.centers_run _ _ _ _ _ hs, PlanEntry.centers_single]
    refine ⟨?_, ?_, fun c hc => ?_, b, by simp, le_refl b⟩
    · simp [List.range_succ_eq_map]
    · refine (rise _).append (List.isChain_singleton b) ?_
      intro x hx y hy
      simp only [getLast?_run, Option.mem_def, Option.some.injEq, List.head?_cons] at hx hy
      omega
    · rcases List.mem_append.mp hc with hc | hc
      · have := mem_run hc
        omega
      · simp only [List.mem_singleton] at hc
        omega

/-! ## Planning that succeeded -/

/-- A tuning that succeeded: the profile of the mode, the first center on the tuning grid at
or above `fstart` plus half the usable width, the last one at `fstop` less that half but not
below the first, both tunable, and an FFT size the instrument accepts. -/
theorem tune_eq_ok {fstart fstop : Nat} {rbw : Double} {mode : RfeMode} {t : Tuning}
    (h : tune fstart fstop rbw mode = .ok t) :
    Profile.forMode mode = .ok t.profile ∧
      roundUp (fstart + t.profile.usableBw / 2) t.profile.tuningResolution = some t.fcstart ∧
      t.fcstop = max (fstop - t.profile.usableBw / 2) t.fcstart ∧
      t.profile.minTunable ≤ t.fcstart ∧ t.fcstop ≤ t.profile.maxTunable ∧
      t.fftSizeWanted = fftSizeFor t.profile.fullBw rbw ∧ minSamplesPerPacket ≤ t.fftSizeWanted := by
  unfold tune at h
  obtain ⟨prop, hp, h⟩ := Except.bind_eq_ok.mp h
  simp only [bind, Except.bind, throw, throwThe, MonadExceptOf.throw, pure, Except.pure] at h
  -- the rbw and band-order checks
  split at h
  · cases h
  split at h
  · cases h
  split at h
  · rename_i fcstart hfc
    -- the tunable range and the FFT size
    split at h
    · cases h
    split at h
    · cases h
    split at h
    · cases h
    cases h
    split at hfc
    · dsimp only
      exact ⟨hp, hfc, rfl, by omega, by omega, rfl, by omega⟩
    · cases hfc
  · cases h

/-- A plan that succeeded is laid out from a successful tuning: the FFT size is the one wanted,
clamped to the instrument maximum, and the entries are those of `planEntries`. -/
theorem plan_eq_ok {fstart fstop : Nat} {rbw : Double} {mode : RfeMode} {cfg : SweepPlan}
    (h : plan fstart fstop rbw mode = .ok cfg) :
    ∃ t, tune fstart fstop rbw mode = .ok t ∧ cfg.mode = mode ∧ cfg.fstart = fstart ∧
      cfg.fstop = fstop ∧ cfg.samplesPerPacket = min t.fftSizeWanted maxSamplesPerPacket ∧
      cfg.rbw = Double.ofNat t.profile.fullBw / Double.ofNat cfg.samplesPerPacket ∧
      cfg.entries = planEntries t.profile t.fcstart t.fcstop cfg.samplesPerPacket ∧
      cfg.packetTotal = (cfg.entries.map PlanEntry.packetCount).sum ∧
      cfg.bins = Profile.countOf (Double.ofNat (fstop - fstart) / cfg.rbw) ∧ cfg.bins ≠ 0 := by
  unfold plan at h
  obtain ⟨t, ht, h⟩ := Except.bind_eq_ok.mp h
  simp only [bind, Except.bind, throw, throwThe, MonadExceptOf.throw, pure, Except.pure] at h
  split at h
  · cases h
  · rename_i hbins
    cases h
    exact ⟨t, ht, rfl, rfl, rfl, rfl, rfl, rfl, rfl, rfl, hbins⟩

/-- Every center of every entry is one packet. -/
theorem length_centers_eq_packets (E : List PlanEntry) (hE : ∀ e ∈ E, e.packetsPerBlock = 1) :
    (E.flatMap PlanEntry.centers).length = (E.map PlanEntry.packetCount).sum := by
  induction E with
  | nil => rfl
  | cons e E ih =>
    simp only [List.flatMap_cons, List.length_append, PlanEntry.length_centers, List.map_cons,
      List.sum_cons, PlanEntry.packetCount, hE e List.mem_cons_self, Nat.mul_one]
    rw [ih fun e' he' => hE e' (List.mem_cons_of_mem e he')]

/-- Whatever the resolution, the FFT size is a power of two. -/
theorem fftSizeFor_pow_two (fullBw : Nat) (rbw : Double) : ∃ k, fftSizeFor fullBw rbw = 2 ^ k := by
  unfold fftSizeFor
  dsimp only
  split
  · exact ⟨62, rfl⟩
  · exact ⟨_, rfl⟩

/-! ## The tiling -/

/-- Every plan the planner returns is for the band and mode asked for, and tiles that band
with tunings of the mode's profile (`SweepPlan.TilesBand`). -/
theorem plan_tilesBand {fstart fstop : Nat} {rbw : Double} {mode : RfeMode} {cfg : SweepPlan}
    (h : plan fstart fstop rbw mode = .ok cfg) :
    cfg.mode = mode ∧ cfg.fstart = fstart ∧ cfg.fstop = fstop ∧
      ∃ prop, Profile.forMode mode = .ok prop ∧ cfg.TilesBand prop := by
  obtain ⟨t, ht, hmode, hfstart, hfstop, hsize, hrbw, hentries, htotal, -⟩ := plan_eq_ok h
  obtain ⟨hp, hround, hfcstop, hmin, hmax, hwanted, hminsize⟩ := tune_eq_ok ht
  have hprop := Profile.mem_of_forMode hp
  have hs := Profile.usableBw_pos hprop
  obtain ⟨hgrid, hlo, hhi⟩ := roundUp_eq_some (Profile.tuningResolution_pos hprop) hround
  have hcenters : cfg.centers =
      (planEntries t.profile t.fcstart t.fcstop cfg.samplesPerPacket).flatMap PlanEntry.centers := by
    rw [SweepPlan.centers, hentries]
  obtain ⟨hhead, hrise, htun, hlast⟩ :=
    planEntries_centers_span t.fcstart t.fcstop cfg.samplesPerPacket hs (by omega) hmax
  rw [← hcenters] at hhead hrise htun hlast
  refine ⟨hmode, hfstart, hfstop, t.profile, hp, ⟨?count, ?shape, ?step, hrise, ?packets, ?tunable,
    ⟨t.fcstart, hhead, hgrid, hfstart ▸ hlo, hfstart ▸ hhi⟩, ?last, ?fft, hrbw⟩⟩
  case count =>
    rw [hentries]
    rcases planEntries_cases t.profile t.fcstart t.fcstop cfg.samplesPerPacket with
      ⟨-, hE⟩ | ⟨-, hE⟩ <;> simp [hE]
  case shape =>
    intro e he
    rw [hentries] at he
    obtain ⟨c, k, rfl⟩ := planEntries_runs _ _ _ _ e he
    exact ⟨rfl, (PlanEntry.run_shape c k _ _ hs).1, rfl, rfl⟩
  case step =>
    intro e he
    rw [hentries] at he
    obtain ⟨c, k, rfl⟩ := planEntries_runs _ _ _ _ e he
    exact (PlanEntry.run_shape c k _ _ hs).2
  case packets =>
    -- one packet per center, and there is a first center
    have hlen : cfg.centers.length = cfg.packetTotal := by
      rw [hcenters, htotal, hentries]
      refine length_centers_eq_packets _ fun e he => ?_
      obtain ⟨c, k, rfl⟩ := planEntries_runs _ _ _ _ e he
      rfl
    have hne : cfg.centers ≠ [] := fun hnil => by simp [hnil] at hhead
    exact ⟨hlen, hlen ▸ List.length_pos_iff.mpr hne⟩
  case tunable =>
    intro c hc
    have := htun c hc
    omega
  case last =>
    obtain ⟨c, hc, hbc⟩ := hlast
    exact ⟨c, hc, by omega⟩
  case fft =>
    obtain ⟨k, hk⟩ := fftSizeFor_pow_two t.profile.fullBw rbw
    refine ⟨?_, ?_, hsize ▸ min_le_right _ _⟩
    · rw [hsize, Nat.min_def]
      split
      · exact ⟨k, by rw [hwanted, hk]⟩
      · exact ⟨15, rfl⟩
    · rw [hsize]
      exact le_min hminsize (by decide)

/-- A band ending 15 MHz past the highest tunable frequency of the SH profile: the run stops at
26965 MHz and a second entry tunes once, to 26995 MHz. -/
theorem plan_tilesBand_near_max :
    ∃ cfg, plan 26905000000 27015000000 100000 .sh = .ok cfg ∧ cfg.entries.length = 2 ∧
      ∃ prop, Profile.forMode .sh = .ok prop ∧ cfg.TilesBand prop := by
  have hlen : (plan 26905000000 27015000000 100000 .sh).toOption.map (·.entries.length) = some 2 := by
    decide +kernel
  cases hplan : plan 26905000000 27015000000 100000 .sh with
  | error e => simp [hplan, Except.toOption] at hlen
  | ok cfg =>
    obtain ⟨-, -, -, htiles⟩ := plan_tilesBand hplan
    simp only [hplan, Except.toOption, Option.map_some, Option.some.injEq] at hlen
    exact ⟨cfg, rfl, hlen, htiles⟩

end SweptSpectrum.Sweep
