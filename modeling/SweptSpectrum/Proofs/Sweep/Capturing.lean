import SweptSpectrum.Proofs.Sweep.Stitching
import SweptSpectrum.Proofs.Vrt.Framing

/-!
# Handling packets during a capture

A context packet only updates the capture's tuned frequency or reference level. A data packet is
placed first, every check made before the buffer is touched: a tuned frequency must be known,
the packet must have the planned size, the transform must accept it and its start bin must lie in
the buffer. Only then are its usable bins written, into the window from its start bin on. For
every plan the planner returns, the usable bins lie inside the transform, mirrored or not, so
the window is read from valid bins and fits the buffer.
-/

namespace SweptSpectrum.Sweep

open Vrt Dsp

/-! ## Writing a window -/

/-- Writing bins leaves every entry outside the window it covers as it was. -/
theorem writeBins_getElem?_outside (a : Analyzer) (reflevel : Float32) (istart offset : ℕ) :
    ∀ count i buf j, j < offset + i ∨ offset + i + count ≤ j →
      (Capture.writeBins a reflevel istart offset count i buf)[j]? = buf[j]? := by
  intro count
  induction count with
  | zero => intro i buf j _; rfl
  | succ n ih =>
    intro i buf j hj
    -- the first bin goes to `offset + i`, the rest from `offset + i + 1` on
    have hne : offset + i ≠ j := by omega
    rw [Capture.writeBins, ih (i + 1) _ j (by omega), Array.getElem?_setIfInBounds_ne hne]

/-! ## Placing a data packet -/

/-- A placed packet starts inside the buffer, at its first usable bin, and writes its usable bins
up to the end of the buffer; its spectrum is left in the capture's analyzer. -/
theorem Capture.place_eq_ok {st : Capture} {p : SweepPlan} {d : IfData} {len : ℕ}
    {pl : Capture.Placement} (h : st.place p d len = .ok pl) :
    pl.offset < len ∧ pl.istart = (st.profile.usableBins p.rbw d.spectralInversion).1 ∧
      pl.count = min ((st.profile.usableBins p.rbw d.spectralInversion).2 -
        (st.profile.usableBins p.rbw d.spectralInversion).1) (len - pl.offset) ∧
      st.analyzer.Rebuffered pl.analyzer := by
  unfold Capture.place at h
  cases hf : st.fcenter with
  | none => simp [hf, throw, throwThe, MonadExceptOf.throw] at h
  | some fc =>
  simp only [hf, bind, Except.bind, throw, throwThe, MonadExceptOf.throw, pure, Except.pure] at h
  split at h
  · cases h
  split at h
  · cases h
  rename_i a ha
  split at h
  · cases h
  · rename_i hin
    cases h
    dsimp only
    -- the analyzer processed the packet, then mirrored its spectrum or not
    have hre := Analyzer.rebuffered_of_process (liftLink_eq_ok.mp ha)
    refine ⟨by omega, rfl, rfl, ?_⟩
    split
    · exact hre.trans (Analyzer.rebuffered_reverse a)
    · exact hre

/-- The usable bins of a planned transform lie inside it, mirrored or not. -/
theorem SweepPlan.Stitchable.usableBins_le {cfg : SweepPlan} {prop : Profile} {k : ℕ}
    (hS : cfg.Stitchable prop k) (inverted : Bool) :
    (prop.usableBins cfg.rbw inverted).1 ≤ (prop.usableBins cfg.rbw inverted).2 ∧
      (prop.usableBins cfg.rbw inverted).2 ≤ cfg.samplesPerPacket := by
  obtain ⟨hF, -, -, hLR, hR, -, -⟩ := Profile.stitch_bounds hS.profile
  have hFpos : 0 < prop.fullBw := by omega
  -- a band `[l, r)` inside the full band, counted outwards in bins of `fullBw / 2^k`
  have hbins {l r : ℕ} (hlr : l ≤ r) (hr : r ≤ prop.fullBw) :
      l * 2 ^ k / prop.fullBw ≤ (r * 2 ^ k + prop.fullBw - 1) / prop.fullBw ∧
        (r * 2 ^ k + prop.fullBw - 1) / prop.fullBw ≤ 2 ^ k := by
    have hmul := Nat.mul_le_mul_right (2 ^ k) hlr
    have hfull := Nat.mul_le_mul_right (2 ^ k) hr
    refine ⟨Nat.div_le_div_right (by omega), Nat.le_of_lt_succ ?_⟩
    rw [Nat.div_lt_iff_lt_mul hFpos]
    have hsucc : (2 ^ k).succ * prop.fullBw = prop.fullBw * 2 ^ k + prop.fullBw := by
      rw [Nat.succ_mul, Nat.mul_comm]
    omega
  rw [hS.size]
  cases inverted
  · simp only [Profile.usableBins, Bool.false_eq_true, if_false]
    rw [hS.countOf_floor_edge (by omega), hS.countOf_ceil_edge hR]
    exact hbins (by omega) hR
  · simp only [Profile.usableBins, if_true]
    rw [hS.countOf_floor_edge (by omega), hS.countOf_ceil_edge (by omega)]
    exact hbins (by omega) (by omega)

/-! ## Handling one packet -/

/-- A packet the capture refuses leaves the buffer as it was. -/
theorem Capture.handlePacket_error {st : Capture} {p : SweepPlan} {pkt : Packet} {buf : Spectrum}
    {e : SweepError} (h : (st.handlePacket p pkt buf).1 = .error e) :
    (st.handlePacket p pkt buf).2 = buf := by
  unfold Capture.handlePacket at h ⊢
  split
  · rfl
  · rfl
  · rfl
  · rename_i d hd
    rw [hd] at h
    simp only at h
    split
    · rfl
    · rename_i pl hpl
      simp only [hpl] at h
      cases h

/-- A context packet the capture takes leaves the buffer and the count of data packets. -/
theorem Capture.handlePacket_context {st st' : Capture} {p : SweepPlan} {pkt : Packet}
    {buf : Spectrum} (hctx : pkt.body.isData = false)
    (h : (st.handlePacket p pkt buf).1 = .ok st') :
    (st.handlePacket p pkt buf).2 = buf ∧ st'.received = st.received := by
  unfold Capture.handlePacket at h ⊢
  split <;> rename_i hbody <;> rw [hbody] at h hctx
  · cases h
    exact ⟨rfl, rfl⟩
  · cases h
    exact ⟨rfl, rfl⟩
  · cases h
    exact ⟨rfl, rfl⟩
  · cases hctx

/-- A data packet the capture takes counts one more packet, keeps the tuning and the reference
level, leaves in the analyzer the packet's spectrum, and writes the buffer only inside the placed
window. -/
theorem Capture.handlePacket_data {st st' : Capture} {p : SweepPlan} {pkt : Packet} {d : IfData}
    {buf : Spectrum} (hd : pkt.body = .ifData d) (h : (st.handlePacket p pkt buf).1 = .ok st') :
    ∃ pl, st.place p d buf.size = .ok pl ∧
      st' = { st with analyzer := pl.analyzer, received := st.received + 1 } ∧
      (st.handlePacket p pkt buf).2 =
        Capture.writeBins pl.analyzer st.reflevel.toFloat32 pl.istart pl.offset pl.count 0 buf := by
  unfold Capture.handlePacket at h ⊢
  simp only [hd] at h ⊢
  cases hpl : st.place p d buf.size with
  | error e =>
    rw [hpl] at h
    cases h
  | ok pl =>
    rw [hpl] at h
    cases h
    exact ⟨pl, rfl, rfl, rfl⟩

/-- A handled packet keeps the setup of the capture's analyzer. -/
theorem Capture.handlePacket_rebuffered {c c₁ : Capture} {p : SweepPlan} {q : Packet}
    {buf : Spectrum} (h : (c.handlePacket p q buf).1 = .ok c₁) :
    c.analyzer.Rebuffered c₁.analyzer := by
  unfold Capture.handlePacket at h
  split at h
  · cases h
    exact .refl _
  · cases h
    exact .refl _
  · cases h
    exact .refl _
  · split at h
    · cases h
    · rename_i pl hpl
      cases h
      exact (Capture.place_eq_ok hpl).2.2.2

/-- Handling one packet is atomic and writes only its window. For every plan the planner
returns, a capture with the profile of the plan's mode, whatever its tuning, reference level,
count and analyzer, handling any packet on any buffer: either refuses it and leaves the buffer
as it was, or takes it. A context packet taken leaves the buffer and the count; a data packet
taken counts one more, keeps the rest of the state but the working buffer of its analyzer, and
changes the buffer only in a window `[offset, offset + count)` that starts inside the buffer,
where `count` is the usable bins `[istart, istop)` of the packet's spectral inversion, cut at the
end of the buffer. The usable bins are in order and, from `istart` on, `count` of them lie
inside the transform of `samplesPerPacket` bins. -/
theorem Capture.handlePacket_window {fstart fstop : ℕ} {rbw : Double} {mode : RfeMode}
    {cfg : SweepPlan} (h : plan fstart fstop rbw mode = .ok cfg) :
    ∃ prop, Profile.forMode mode = .ok prop ∧
      ∀ (st : Capture) (pkt : Packet) (buf : Spectrum), st.profile = prop →
        (∀ e, (st.handlePacket cfg pkt buf).1 = .error e → (st.handlePacket cfg pkt buf).2 = buf) ∧
        ∀ st', (st.handlePacket cfg pkt buf).1 = .ok st' →
          (pkt.body.isData = false →
            (st.handlePacket cfg pkt buf).2 = buf ∧ st'.received = st.received) ∧
          ∀ d, pkt.body = .ifData d →
            st' = { st with analyzer := st'.analyzer, received := st.received + 1 } ∧
            st.analyzer.Rebuffered st'.analyzer ∧
            (st.handlePacket cfg pkt buf).2.size = buf.size ∧
            ∃ offset count, offset < buf.size ∧
              (prop.usableBins cfg.rbw d.spectralInversion).1 ≤
                (prop.usableBins cfg.rbw d.spectralInversion).2 ∧
              count = min ((prop.usableBins cfg.rbw d.spectralInversion).2 -
                (prop.usableBins cfg.rbw d.spectralInversion).1) (buf.size - offset) ∧
              (prop.usableBins cfg.rbw d.spectralInversion).1 + count ≤ cfg.samplesPerPacket ∧
              ∀ j, j < offset ∨ offset + count ≤ j →
                (st.handlePacket cfg pkt buf).2[j]? = buf[j]? := by
  obtain ⟨prop, k, hp, hS⟩ := plan_stitchable h
  refine ⟨prop, hp, fun st pkt buf hprop => ⟨fun e he => Capture.handlePacket_error he,
    fun st' hok => ⟨fun hctx => Capture.handlePacket_context hctx hok, fun d hd => ?_⟩⟩⟩
  obtain ⟨pl, hpl, rfl, hbuf⟩ := Capture.handlePacket_data hd hok
  obtain ⟨hoff, histart, hcount, hre⟩ := Capture.place_eq_ok hpl
  obtain ⟨hle, hinside⟩ := hS.usableBins_le d.spectralInversion
  rw [hprop] at histart hcount
  refine ⟨rfl, hre, by rw [hbuf, size_writeBins], pl.offset, pl.count, hoff, hle, hcount, ?_,
    fun j hj => ?_⟩
  · -- the window is no wider than the usable bins, which end inside the transform
    have hmin := Nat.min_le_left ((prop.usableBins cfg.rbw d.spectralInversion).2 -
      (prop.usableBins cfg.rbw d.spectralInversion).1) (buf.size - pl.offset)
    omega
  · rw [hbuf]
    exact writeBins_getElem?_outside _ _ _ _ _ 0 buf j (by omega)

/-- The narrow-mode plan of 2400 MHz to 2410.0001 MHz at 100 kHz, and a capture of its profile
before any context: a receiver context it takes leaves the buffer as it was, and a data packet
it takes is counted. -/
theorem Capture.handlePacket_window_shn :
    ∃ cfg, plan 2400000000 2410000100 100000 .shn = .ok cfg ∧
      let st : Capture := { profile := Profile.shn, analyzer := ⟨1024, Backend.fourierFft,
        hannWindow 1024, Array.replicate 1024 Bin.zero, Array.size_replicate⟩ }
      let hdr : Header := ⟨.context, 0, 0, .receiver, false, {}⟩
      (∀ st', (st.handlePacket cfg ⟨hdr, .receiver { frequency := some (Double.ofNat 2405000000) }⟩
          (poisonedSpectrum 163)).1 = .ok st' →
        (st.handlePacket cfg ⟨hdr, .receiver { frequency := some (Double.ofNat 2405000000) }⟩
          (poisonedSpectrum 163)).2 = poisonedSpectrum 163) ∧
      ∀ (d : IfData) st', (st.handlePacket cfg ⟨hdr, .ifData d⟩ (poisonedSpectrum 163)).1 = .ok st' →
        st'.received = 1 := by
  have hv : (plan 2400000000 2410000100 100000 .shn).toOption.map SweepPlan.bins = some 163 := by
    decide +kernel
  cases hplan : plan 2400000000 2410000100 100000 .shn with
  | error e => simp [hplan, Except.toOption] at hv
  | ok cfg =>
    obtain ⟨prop, hp, hwin⟩ := Capture.handlePacket_window hplan
    have hprop : prop = Profile.shn := by
      have hshn : Profile.forMode .shn = .ok Profile.shn := rfl
      rw [hshn] at hp
      exact (Except.ok.inj hp).symm
    subst hprop
    refine ⟨cfg, rfl, fun st' hok => ?_, fun d st' hok => ?_⟩
    · exact ((hwin _ _ _ rfl).2 st' hok).1 rfl |>.1
    · rw [(((hwin _ _ _ rfl).2 st' hok).2 d rfl).1]

/-! ## A capture as a fold over the stream -/

/-- How a capture ends: its result, the buffer, the data packets handled and the packets read. -/
structure Stopped where
  result : SweepResult Unit
  spectrum : Spectrum
  received : ℕ
  taken : ℕ

/-- Where a capture stands while packets are fed to it: still reading, with its state, its
buffer and the number of packets read, or stopped. -/
inductive Progress where
  | reading (c : Capture) (buf : Spectrum) (taken : ℕ)
  | stopped (s : Stopped)

namespace Progress

/-- A capture of a plan starts reading, unless no data packet is due. -/
def start (p : SweepPlan) (c : Capture) (buf : Spectrum) : Progress :=
  if c.isComplete p then .stopped ⟨.ok (), buf, c.received, 0⟩ else .reading c buf 0

/-- Feeds one packet: a capture still reading handles it, and stops at the first refusal or as
soon as the plan's data packets are all in; a capture that stopped takes no more packets. -/
def feed (p : SweepPlan) : Progress → Packet → Progress
  | .reading c buf taken, q =>
    match c.handlePacket p q buf with
    | (.error e, buf) => .stopped ⟨.error e, buf, c.received, taken + 1⟩
    | (.ok c, buf) =>
      if c.isComplete p then .stopped ⟨.ok (), buf, c.received, taken + 1⟩
      else .reading c buf (taken + 1)
  | .stopped s, _ => .stopped s

/-- The end of the packets: a capture still reading fails with the error reading stops with. -/
def finish : Progress → LinkError → Stopped
  | .reading c buf taken, e => ⟨.error (.device e), buf, c.received, taken⟩
  | .stopped s, _ => s

theorem foldl_feed_stopped (p : SweepPlan) (s : Stopped) (ps : List Packet) :
    ps.foldl (feed p) (.stopped s) = .stopped s := by
  induction ps with
  | nil => rfl
  | cons q ps ih => exact ih

end Progress

/-- A capture that has all its data packets stops at once, reading nothing. -/
theorem runCapture_complete {σ : Type} [DataChannel σ] {p : SweepPlan} {c : Capture}
    (hc : c.isComplete p = true) (fuel : ℕ) (r : Reader σ) (buf : Spectrum) :
    runCapture p fuel c r buf = ⟨.ok (), r, buf, c.received⟩ := by
  cases fuel with
  | zero => rfl
  | succ fuel => simp [runCapture, hc]

/-- Capturing from memory that holds whole packets and then where reading stops is feeding
those packets to the capture, one by one: the same result, buffer and count, and on success the
channel holds exactly the packets not read. -/
theorem runCapture_feed {p : SweepPlan} {ps : List Packet} {cs : List Wire.Bytes}
    (hwhole : List.Forall₂ Packet.Whole ps cs) {rest : Wire.Bytes} {e : LinkError}
    (hend : Packet.StreamEnd rest e) :
    ∀ (fuel : ℕ) (c : Capture) (buf : Spectrum) (r : Reader MemoryChannel) (t : ℕ),
      r.channel = ⟨cs.flatten ++ rest⟩ → cs.length < fuel → c.isComplete p = false →
      (runCapture p fuel c r buf).result =
          ((ps.foldl (Progress.feed p) (.reading c buf t)).finish e).result ∧
        (runCapture p fuel c r buf).spectrum =
          ((ps.foldl (Progress.feed p) (.reading c buf t)).finish e).spectrum ∧
        (runCapture p fuel c r buf).received =
          ((ps.foldl (Progress.feed p) (.reading c buf t)).finish e).received ∧
        t ≤ ((ps.foldl (Progress.feed p) (.reading c buf t)).finish e).taken ∧
        (((ps.foldl (Progress.feed p) (.reading c buf t)).finish e).result = .ok () →
          (runCapture p fuel c r buf).reader.channel =
            ⟨(cs.drop (((ps.foldl (Progress.feed p) (.reading c buf t)).finish e).taken - t)).flatten
              ++ rest⟩) := by
  induction hwhole with
  | nil =>
    intro fuel c buf r t hch hfuel hc
    obtain ⟨fuel, rfl⟩ : ∃ f, fuel = f + 1 := ⟨fuel - 1, by simp at hfuel; omega⟩
    rw [List.flatten_nil, List.nil_append] at hch
    -- the read at the end of the packets fails with the error reading stops with
    have hread : r.readPacket = (.error e, r.readPacket.2) := by
      rcases hend with ⟨rfl, rfl⟩ | ⟨hne, hdec⟩
      · rw [Reader.readPacket_nil r hch]
      · have h := (Reader.readPacket_memory r hch hne).1
        rw [hdec] at h
        exact Prod.ext h rfl
    simp only [runCapture, hc, Bool.false_eq_true, if_false, List.foldl_nil, Progress.finish]
    rw [hread]
    exact ⟨rfl, rfl, rfl, le_refl t, fun h => by cases h⟩
  | @cons q bs ps cs hq _ ih =>
    intro fuel c buf r t hch hfuel hc
    obtain ⟨fuel, rfl⟩ : ∃ f, fuel = f + 1 := ⟨fuel - 1, by simp at hfuel; omega⟩
    -- the reader takes the first packet whole
    have hread := Reader.readPacket_of_decode (by simpa using hch) hq
    simp only [runCapture, hc, Bool.false_eq_true, if_false, hread, List.foldl_cons, Progress.feed]
    rcases hh : c.handlePacket p q buf with ⟨_ | c', buf'⟩
    · -- a refused packet stops the capture with its error
      simp only [Progress.foldl_feed_stopped, Progress.finish, true_and]
      exact ⟨Nat.le_succ t, fun h => by cases h⟩
    · by_cases hc' : c'.isComplete p
      · -- the last data packet due: the capture stops right after it
        simp only [hc', if_true, Progress.foldl_feed_stopped, Progress.finish,
          runCapture_complete hc']
        simp only [true_and, forall_const]
        refine ⟨Nat.le_succ t, ?_⟩
        rw [Nat.add_sub_cancel_left, List.drop_one, List.tail_cons]
      · simp only [hc', Bool.false_eq_true, if_false]
        obtain ⟨hres, hspec, hrec, htaken, hchan⟩ := ih fuel c' buf' { r.accept q with channel := ⟨cs.flatten ++ rest⟩ } (t + 1) rfl
          (by simpa using hfuel) (by simpa using hc')
        refine ⟨hres, hspec, hrec, by omega, fun hok => ?_⟩
        rw [hchan hok]
        -- the packets read after the first one are those past it
        obtain ⟨m, hm⟩ : ∃ m, ((ps.foldl (Progress.feed p) (.reading c' buf' (t + 1))).finish e).taken =
            t + 1 + m := ⟨_, (Nat.add_sub_of_le htaken).symm⟩
        rw [hm, show t + 1 + m - t = m + 1 by omega, Nat.add_sub_cancel_left, List.drop_succ_cons]

/-! ## What a capture knows after a run of packets -/

/-- The tuned frequency a packet announces: that of a receiver context that carries one. -/
def announcedFrequency (q : Packet) : Option Double :=
  match q.body with
  | .receiver ctx => ctx.frequency
  | _ => none

/-- The reference level a packet announces: that of a digitizer context that carries one. -/
def announcedLevel (q : Packet) : Option Double :=
  match q.body with
  | .digitizer ctx => ctx.referenceLevel
  | _ => none

/-- A packet after which the capture reads on: a frequency or a reference level it announces
replaces the capture's own, a data packet counts one, and nothing else changes. -/
theorem Progress.feed_reading {p : SweepPlan} {c c' : Capture} {buf buf' : Spectrum}
    {t t' : ℕ} {q : Packet} (h : Progress.feed p (.reading c buf t) q = .reading c' buf' t') :
    c'.fcenter = (announcedFrequency q).or c.fcenter ∧
      c'.reflevel = (announcedLevel q).getD c.reflevel ∧
      c'.received = c.received + (if q.body.isData then 1 else 0) ∧
      c'.profile = c.profile ∧ c.analyzer.Rebuffered c'.analyzer ∧ c'.isComplete p = false ∧
      t' = t + 1 := by
  simp only [Progress.feed] at h
  rcases hh : c.handlePacket p q buf with ⟨_ | c₁, buf₁⟩
  · rw [hh] at h
    cases h
  · rw [hh] at h
    dsimp only at h
    by_cases hc : c₁.isComplete p
    · rw [if_pos hc] at h
      cases h
    · rw [if_neg hc] at h
      cases h
      refine ⟨?_, ?_, ?_, ?_, Capture.handlePacket_rebuffered (congrArg Prod.fst hh),
        by simpa using hc, rfl⟩ <;>
      · unfold Capture.handlePacket at hh
        rcases hq : q.body with ctx | ctx | ctx | d
        all_goals simp only [hq] at hh
        -- a refused data packet does not reach here; a placed one changes only the count
        case ifData =>
          split at hh
          · cases hh
          · cases hh
            simp [announcedFrequency, announcedLevel, hq, Body.isData]
        all_goals
          cases hh
          simp [announcedFrequency, announcedLevel, hq, Body.isData, Option.orElse_eq_or]

/-- A capture that reads on after a run of packets knows the last frequency and the last
reference level the run announced, or its own where the run announced none, and has counted the
run's data packets. -/
theorem Progress.foldl_reading {p : SweepPlan} :
    ∀ (pre : List Packet) (c : Capture) (buf : Spectrum) (t : ℕ) {c' : Capture} {buf' : Spectrum}
      {t' : ℕ}, c.isComplete p = false →
      pre.foldl (Progress.feed p) (.reading c buf t) = .reading c' buf' t' →
      c'.fcenter = (pre.filterMap announcedFrequency).getLast?.or c.fcenter ∧
        c'.reflevel = (pre.filterMap announcedLevel).getLast?.getD c.reflevel ∧
        c'.received = c.received + (pre.filter fun q => q.body.isData).length ∧
        c'.profile = c.profile ∧ c.analyzer.Rebuffered c'.analyzer ∧ c'.isComplete p = false ∧
        t' = t + pre.length
  | [], c, buf, t, _, _, _, hc, h => by
    cases h
    simpa using hc
  | q :: pre, c, buf, t, c', buf', t', hc, h => by
    rw [List.foldl_cons] at h
    rcases h₁ : Progress.feed p (.reading c buf t) q with ⟨c₁, buf₁, t₁⟩ | s
    · obtain ⟨hf₁, hl₁, hr₁, hp₁, ha₁, hc₁, ht₁⟩ := Progress.feed_reading h₁
      rw [h₁] at h
      obtain ⟨hf, hl, hr, hp, ha, hc', ht⟩ := Progress.foldl_reading pre c₁ buf₁ t₁ hc₁ h
      refine ⟨?_, ?_, ?_, hp.trans hp₁, ha₁.trans ha, hc', ?_⟩
      · -- the last announcement of the whole run is the rest's, or else the first packet's
        rw [hf, hf₁, List.filterMap_cons]
        cases announcedFrequency q with
        | none => rw [Option.none_or]
        | some b =>
          rw [List.getLast?_cons]
          cases (pre.filterMap announcedFrequency).getLast? <;> rfl
      · rw [hl, hl₁, List.filterMap_cons]
        cases announcedLevel q with
        | none => rfl
        | some b => rw [List.getLast?_cons]; rfl
      · rw [hr, hr₁, List.filter_cons]
        by_cases hd : q.body.isData
        · rw [if_pos hd, if_pos hd, List.length_cons]
          omega
        · rw [if_neg hd, if_neg hd]
          omega
      · rw [ht, ht₁, List.length_cons]
        omega
    · -- a capture that stopped never reads on
      rw [h₁, Progress.foldl_feed_stopped] at h
      cases h

/-- For every plan the planner returns and every transform, a capture starts with the mode's
profile, a new analyzer of the planned packet size, no tuned frequency, a zero reference level
and no packet handled. -/
theorem Capture.new_of_plan {fstart fstop : ℕ} {rbw : Double} {mode : RfeMode} {cfg : SweepPlan}
    (h : plan fstart fstop rbw mode = .ok cfg) (fft : Fft) :
    ∃ prop, Profile.forMode mode = .ok prop ∧
      Capture.new fft cfg =
        .ok { profile := prop, analyzer := ⟨cfg.samplesPerPacket, fft, hannWindow cfg.samplesPerPacket,
          Array.replicate cfg.samplesPerPacket Bin.zero, Array.size_replicate⟩ } := by
  obtain ⟨t, ht, hmode, -, -, hspp, -⟩ := plan_eq_ok h
  obtain ⟨hprop, -, -, -, -, -, hmin⟩ := tune_eq_ok ht
  -- the planned size is at least the minimum packet size, so the analyzer accepts it
  have hsize : ¬ cfg.samplesPerPacket < 2 := by
    rw [hspp]
    unfold minSamplesPerPacket at hmin
    unfold maxSamplesPerPacket
    omega
  refine ⟨t.profile, hprop, ?_⟩
  unfold Capture.new SweepPlan.profile
  rw [hmode, hprop]
  simp only [Analyzer.new, hsize, if_false]
  rfl

/-- A handled packet counts one exactly when it is a data packet. -/
theorem Capture.handlePacket_received {c c₁ : Capture} {p : SweepPlan} {q : Packet}
    {buf : Spectrum} (h : (c.handlePacket p q buf).1 = .ok c₁) :
    c₁.received = c.received + (if q.body.isData then 1 else 0) := by
  cases hd : q.body.isData
  · rw [(Capture.handlePacket_context hd h).2]
    rfl
  · obtain ⟨d, hq⟩ : ∃ d, q.body = .ifData d := by
      cases hb : q.body <;> simp_all [Body.isData]
    obtain ⟨_, _, rfl, _⟩ := Capture.handlePacket_data hq h
    rfl

/-- A capture stops with success only on the data packet that completes the plan. -/
theorem Progress.feed_stopped_ok {p : SweepPlan} {c : Capture} {buf : Spectrum} {t : ℕ}
    {q : Packet} {s : Stopped} (hc : c.isComplete p = false)
    (h : Progress.feed p (.reading c buf t) q = .stopped s) (hok : s.result = .ok ()) :
    s.received = p.packetTotal := by
  simp only [Progress.feed] at h
  rcases hh : c.handlePacket p q buf with ⟨_ | c₁, buf₁⟩
  · rw [hh] at h
    cases h
    cases hok
  · rw [hh] at h
    dsimp only at h
    by_cases hc₁ : c₁.isComplete p
    · rw [if_pos hc₁] at h
      cases h
      -- one packet moved the count from below the total to at least the total
      have hrec := Capture.handlePacket_received (congrArg Prod.fst hh)
      simp only [Capture.isComplete, decide_eq_true_eq, decide_eq_false_iff_not] at hc hc₁
      show c₁.received = p.packetTotal
      split at hrec <;> omega
    · rw [if_neg hc₁] at h
      cases h

/-- A capture fed a run of packets succeeds only with every planned data packet handled. -/
theorem Progress.foldl_finish_ok {p : SweepPlan} {e : LinkError} :
    ∀ (ps : List Packet) (c : Capture) (buf : Spectrum) (t : ℕ), c.isComplete p = false →
      ((ps.foldl (Progress.feed p) (.reading c buf t)).finish e).result = .ok () →
      ((ps.foldl (Progress.feed p) (.reading c buf t)).finish e).received = p.packetTotal
  | [], _, _, _, _, h => by cases h
  | q :: ps, c, buf, t, hc, h => by
    rw [List.foldl_cons] at h ⊢
    rcases h₁ : Progress.feed p (.reading c buf t) q with ⟨c₁, buf₁, t₁⟩ | s
    · rw [h₁] at h
      exact Progress.foldl_finish_ok ps c₁ buf₁ t₁ (Progress.feed_reading h₁).2.2.2.2.2.1 h
    · rw [h₁, Progress.foldl_feed_stopped] at h
      rw [Progress.foldl_feed_stopped]
      exact Progress.feed_stopped_ok hc h₁ h

/-- Capturing is a fold over the packet stream. A capture from memory starts with no tuned
frequency, a zero reference level, no packet counted and a poisoned buffer, and feeds the
stream's whole packets to `Progress.feed` in order. While it reads on, it knows the last
frequency and reference level the packets so far announced and has counted their data packets.
It returns what the fold stops with. It succeeds only with every planned data packet handled,
and then leaves every packet after the one that completed the plan unread. -/
theorem capturePowerSpectrum_folds_packets {fstart fstop : ℕ} {rbw : Double} {mode : RfeMode}
    {cfg : SweepPlan} (h : plan fstart fstop rbw mode = .ok cfg) (fft : Fft)
    (r : Reader MemoryChannel) (b : Wire.Bytes) (hch : r.channel = ⟨b⟩) :
    ∃ c₀ : Capture, Capture.new fft cfg = .ok c₀ ∧ c₀.fcenter = none ∧ c₀.reflevel = 0 ∧
      c₀.received = 0 ∧
      (∀ (pre : List Packet) (c : Capture) (buf : Spectrum) (t : ℕ),
        pre.foldl (Progress.feed cfg) (Progress.start cfg c₀ (poisonedSpectrum cfg.bins)) =
          .reading c buf t →
        c.fcenter = (pre.filterMap announcedFrequency).getLast? ∧
          c.reflevel = (pre.filterMap announcedLevel).getLast?.getD 0 ∧
          c.received = (pre.filter fun q => q.body.isData).length ∧
          c.received < cfg.packetTotal ∧ t = pre.length) ∧
      (∃ cs ps rest e, b = cs.flatten ++ rest ∧ List.Forall₂ Packet.Whole ps cs ∧
        Packet.StreamEnd rest e) ∧
      ∀ cs ps rest e, b = cs.flatten ++ rest → List.Forall₂ Packet.Whole ps cs →
        Packet.StreamEnd rest e →
        let s := (ps.foldl (Progress.feed cfg)
          (Progress.start cfg c₀ (poisonedSpectrum cfg.bins))).finish e
        (capturePowerSpectrum fft cfg r).result = s.result ∧
          (capturePowerSpectrum fft cfg r).spectrum = s.spectrum ∧
          (capturePowerSpectrum fft cfg r).received = s.received ∧
          (s.result = .ok () → s.received = cfg.packetTotal ∧
            (capturePowerSpectrum fft cfg r).reader.channel = ⟨(cs.drop s.taken).flatten ++ rest⟩) := by
  obtain ⟨c₀, hnew, hrec₀⟩ : ∃ c₀ : Capture, Capture.new fft cfg = .ok c₀ ∧ c₀.received = 0 ∧
      c₀.fcenter = none ∧ c₀.reflevel = 0 := by
    obtain ⟨prop, -, hnew⟩ := Capture.new_of_plan h fft
    exact ⟨_, hnew, rfl, rfl, rfl⟩
  obtain ⟨hrec₀, hf₀, hl₀⟩ := hrec₀
  refine ⟨c₀, hnew, hf₀, hl₀, hrec₀, ?_, Packet.exists_split b, ?_⟩
  · -- the state while reading, from the run lemma over the packets so far
    intro pre c buf t hfold
    unfold Progress.start at hfold
    by_cases hc₀ : c₀.isComplete cfg
    · rw [if_pos hc₀, Progress.foldl_feed_stopped] at hfold
      cases hfold
    · rw [if_neg hc₀] at hfold
      obtain ⟨hf, hl, hr, -, -, hc, ht⟩ :=
        Progress.foldl_reading pre c₀ _ 0 (by simpa using hc₀) hfold
      simp only [Capture.isComplete, decide_eq_false_iff_not] at hc
      refine ⟨by rw [hf, hf₀, Option.or_none], by rw [hl, hl₀], by rw [hr, hrec₀, Nat.zero_add],
        by omega, by omega⟩
  · intro cs ps rest e hb hwhole hend
    unfold capturePowerSpectrum Progress.start
    rw [hnew]
    dsimp only
    by_cases hc₀ : c₀.isComplete cfg
    · -- no data packet is due: the capture succeeds at once and reads nothing
      rw [if_pos hc₀, Progress.foldl_feed_stopped, runCapture_complete hc₀]
      simp only [Capture.isComplete, decide_eq_true_eq] at hc₀
      refine ⟨rfl, rfl, rfl, fun _ => ⟨show c₀.received = cfg.packetTotal by omega, ?_⟩⟩
      dsimp only [Progress.finish]
      rw [hch, hb, List.drop_zero]
    · rw [if_neg hc₀]
      have hc₀' : c₀.isComplete cfg = false := by simpa using hc₀
      -- a packet takes at least one byte, so the bytes held bound the reads
      have hfuel : cs.length < DataChannel.pending r.channel + 1 := by
        have := length_le_length_flatten hwhole
        simp only [DataChannel.pending, hch, hb, List.length_append]
        omega
      obtain ⟨hres, hspec, hrec, -, hchan⟩ :=
        runCapture_feed hwhole hend _ c₀ (poisonedSpectrum cfg.bins) r 0 (by rw [hch, hb]) hfuel hc₀'
      refine ⟨hres, hspec, hrec, fun hok => ⟨Progress.foldl_finish_ok ps c₀ _ 0 hc₀' hok, ?_⟩⟩
      rw [hchan hok, Nat.sub_zero]

/-- A stream that ends before its first packet leaves a capture with the command's transform
failing on the closed channel, with nothing counted. -/
theorem capturePowerSpectrum_folds_packets_closed :
    ∃ cfg, plan 2400000000 2410000100 100000 .shn = .ok cfg ∧
      (capturePowerSpectrum Backend.fourierFft cfg
          ({ channel := ⟨[]⟩, timeoutMs := 0 } : Reader MemoryChannel)).result =
        .error (.device .connectionDropped) ∧
      (capturePowerSpectrum Backend.fourierFft cfg
          ({ channel := ⟨[]⟩, timeoutMs := 0 } : Reader MemoryChannel)).received = 0 := by
  have hv : (plan 2400000000 2410000100 100000 .shn).toOption.map SweepPlan.packetTotal =
      some 2 := by
    decide +kernel
  cases hplan : plan 2400000000 2410000100 100000 .shn with
  | error e => simp [hplan, Except.toOption] at hv
  | ok cfg =>
    have htotal : cfg.packetTotal = 2 := by simpa [hplan, Except.toOption] using hv
    obtain ⟨c₀, -, -, -, hrec₀, -, -, hfold⟩ := capturePowerSpectrum_folds_packets hplan
      Backend.fourierFft { channel := ⟨[]⟩, timeoutMs := 0 } [] rfl
    have hc₀ : c₀.isComplete cfg = false := by simp [Capture.isComplete, hrec₀, htotal]
    obtain ⟨hres, -, hrec, -⟩ := hfold [] [] [] .connectionDropped rfl .nil (Or.inl ⟨rfl, rfl⟩)
    refine ⟨cfg, rfl, ?_, ?_⟩
    · rw [hres]
      simp [Progress.start, hc₀, Progress.finish]
    · rw [hrec]
      simp [Progress.start, hc₀, Progress.finish, hrec₀]

end SweptSpectrum.Sweep
