import SweptSpectrum.Proofs.Instrument.Commands
import SweptSpectrum.Proofs.Vrt.Streams
import SweptSpectrum.Proofs.Sweep.Stitching
import SweptSpectrum.Backend.Random

/-!
# The sweep a loaded simulator sends

Started, the simulator sends a marker, then for every center of every entry a receiver context
with the center, a digitizer context with the bandwidth and the configured reference level, and
the entry's data packets. `Sends m s a es s'` says that running `m` from `s` returns `a` in `s'`
and queues the encodings of packets that are the emissions `es`, in order. Every step of the
simulator is shown to send its emissions, and sending composes along `++`, so a whole sweep is
read off the plan it was loaded with.
-/

namespace SweptSpectrum.Instrument

open Vrt Sweep Wire

/-- What a packet of a sweep is, as far as the plan and the configuration fix it. -/
inductive Emission where
  /-- the extension context that marks the start of a sweep -/
  | marker
  /-- a receiver context tuned to a center, Hz -/
  | tuned (center : ℕ)
  /-- a digitizer context with a bandwidth, Hz, and a reference level, dB -/
  | digitized (bandwidth : ℕ) (level : Double)
  /-- a data packet of 16-bit samples whose trailer marks the data valid and the reference
  locked -/
  | data (samples : ℕ)

namespace Emission

/-- Whether a packet is the emission: its stream and what its body holds. -/
def Fits : Emission → Packet → Prop
  | .marker, q => q.header.streamId = .extension ∧
      ∃ id, q.body = .extension { sweepStartId := some id }
  | .tuned c, q => q.header.streamId = .receiver ∧
      q.body = .receiver { frequency := some (Double.ofNat c) }
  | .digitized bw l, q => q.header.streamId = .digitizer ∧
      q.body = .digitizer { bandwidth := some (Double.ofNat bw), referenceLevel := some l }
  | .data n, q => q.header.streamId = .i16 ∧
      ∃ vs t, q.body = .ifData { samples := .real16 vs, trailer := some t } ∧ vs.length = n ∧
        t.validData = true ∧ t.referenceLock = true

def isData : Emission → Bool
  | .data _ => true
  | _ => false

end Emission

/-- Running `m` from `s` returns `a` in `s'`, keeps the configuration, and queues on the data
channel the encodings of packets that are the emissions `es`, in order. -/
structure Sends {α : Type} (m : SimM α) (s : Simulator) (a : α) (es : List Emission)
    (s' : Simulator) : Prop where
  run : m.run.run s = (.ok a, s')
  config : s'.config = s.config
  queue : ∃ qs chunks, s'.queue.toList = s.queue.toList ++ chunks ∧
    List.Forall₂ (fun q bs => Packet.encode q = .ok bs) qs chunks ∧
    List.Forall₂ Emission.Fits es qs

namespace Sends

variable {α β : Type}

theorem bind {m : SimM α} {f : α → SimM β} {s s₁ s₂ : Simulator} {a : α} {b : β}
    {es es' : List Emission} (h₁ : Sends m s a es s₁) (h₂ : Sends (f a) s₁ b es' s₂) :
    Sends (m >>= f) s b (es ++ es') s₂ := by
  obtain ⟨qs₁, cs₁, hq₁, henc₁, hfit₁⟩ := h₁.queue
  obtain ⟨qs₂, cs₂, hq₂, henc₂, hfit₂⟩ := h₂.queue
  refine ⟨by rw [run_bind_ok h₁.run, h₂.run], h₂.config.trans h₁.config,
    qs₁ ++ qs₂, cs₁ ++ cs₂, ?_, List.rel_append henc₁ henc₂, List.rel_append hfit₁ hfit₂⟩
  rw [hq₂, hq₁, List.append_assoc]

/-- A step that leaves the queue and the configuration sends nothing. -/
theorem quiet {m : SimM α} {s s' : Simulator} {a : α} (h : m.run.run s = (.ok a, s'))
    (hq : s'.queue = s.queue) (hc : s'.config = s.config) : Sends m s a [] s' :=
  ⟨h, hc, [], [], by simp [hq], .nil, .nil⟩

theorem pure (s : Simulator) (a : α) : Sends (Pure.pure a : SimM α) s a [] s :=
  quiet rfl rfl rfl

theorem get (s : Simulator) : Sends (MonadState.get : SimM Simulator) s s [] s :=
  quiet rfl rfl rfl

/-- Sequencing, with the first step's end state left open and the emissions of the whole
described by `P`. -/
theorem bind_of {m : SimM α} {f : α → SimM β} {s : Simulator} {a : α} {b : β}
    {es₁ : List Emission} {P : List Emission → Prop} (h₁ : ∃ s₁, Sends m s a es₁ s₁)
    (h₂ : ∀ s₁, Sends m s a es₁ s₁ → ∃ es₂ s₂, Sends (f a) s₁ b es₂ s₂ ∧ P (es₁ ++ es₂)) :
    ∃ es s₂, Sends (m >>= f) s b es s₂ ∧ P es := by
  obtain ⟨s₁, hs₁⟩ := h₁
  obtain ⟨es₂, s₂, hs₂, hP⟩ := h₂ s₁ hs₁
  exact ⟨es₁ ++ es₂, s₂, hs₁.bind hs₂, hP⟩

/-- A step that emits nothing and keeps the configuration, followed by the rest. -/
theorem quiet_bind {m : SimM α} {f : α → SimM β} {s s₀ : Simulator} {a : α} {b : β}
    {P : List Emission → Prop} (hm : m.run.run s = (.ok a, s₀)) (hq : s₀.queue = s.queue)
    (hc : s₀.config = s.config) (h : ∃ es s', Sends (f a) s₀ b es s' ∧ P es) :
    ∃ es s', Sends (m >>= f) s b es s' ∧ P es := by
  obtain ⟨es, s', hs, hP⟩ := h
  exact ⟨[] ++ es, s', (quiet hm hq hc).bind hs, by simpa using hP⟩

/-- Reading the state emits nothing and hands the state itself to the rest. -/
theorem get_bind {f : Simulator → SimM β} {s : Simulator} {b : β} {P : List Emission → Prop}
    (h : ∃ es s', Sends (f s) s b es s' ∧ P es) :
    ∃ es s', Sends (MonadState.get >>= f) s b es s' ∧ P es :=
  quiet_bind rfl rfl rfl h

theorem exists_of_exists_eq {m : SimM α} {s : Simulator} {a : α} {es : List Emission}
    (h : ∃ es' s', Sends m s a es' s' ∧ es' = es) : ∃ s', Sends m s a es s' := by
  obtain ⟨es', s', hs, rfl⟩ := h
  exact ⟨s', hs⟩

end Sends

/-! ## Sending one packet -/

theorem picoseconds_timestamp (s : Simulator) : s.timestamp.picoseconds.toNat < picosPerSecond := by
  have hlt : s.clockPicos % picosPerSecond < picosPerSecond := Nat.mod_lt _ (by decide)
  have hfit : s.clockPicos % picosPerSecond < 2 ^ 64 := by
    unfold picosPerSecond at hlt ⊢
    omega
  simp only [Simulator.timestamp, Nat.toUInt64, UInt64.toNat_ofNat', Nat.mod_eq_of_lt hfit]
  exact hlt

/-- A write encodes when its body does, the packet fits the size field and the timestamp is
valid. -/
theorem encodes_of_encodeBody {id : StreamId} {ts : Timestamp} {body : Body} {bytes : Bytes}
    {trailer : Bool} (h : encodeBody id body = .ok (bytes, trailer))
    (hlen : Header.words + bytes.length / 4 ≤ maxPacketWords)
    (hts : ts.picoseconds.toNat < picosPerSecond) : (WriteOp.write id ts body).encodes = true := by
  simp [WriteOp.encodes, h, hlen, hts]

theorem Writer.encodePacket_of_encode {w : Writer} {id : StreamId} {ts : Timestamp} {body : Body}
    {bs : Bytes} (h : (w.packetFor id ts body).encode = .ok bs) :
    ∃ w', w.encodePacket id ts body = .ok (bs, w') := by
  unfold Writer.encodePacket
  rw [h]
  exact ⟨_, rfl⟩

/-- Emitting a packet whose write encodes queues its bytes: it is the packet of the stream and
the body given, whichever emission that makes it. -/
theorem emit_sends {id : StreamId} {ts : Timestamp} {body : Body} (e : Emission) (s : Simulator)
    (henc : (WriteOp.write id ts body).encodes = true)
    (hfit : ∀ q : Packet, q.header.streamId = id → q.body = body → e.Fits q) :
    ∃ s', Sends (Simulator.emit id ts body) s () [e] s' := by
  obtain ⟨bs, hbs⟩ := Writer.exists_encode_of_encodes s.writer henc
  obtain ⟨w', hw⟩ := Writer.encodePacket_of_encode hbs
  refine ⟨{ s with writer := w', queue := s.queue.push bs }, ?_, rfl,
    [s.writer.packetFor id ts body], [bs], by simp, .cons hbs .nil, .cons (hfit _ rfl rfl) .nil⟩
  unfold Simulator.emit
  rw [run_bind_ok (Sends.get s).run]
  simp only [hw]
  rfl

/-- Every packet of a sweep encodes: its body fits its stream, the packet its size field, and
the simulator's clock gives a valid timestamp. -/
theorem encodes_marker (v : UInt32) {ts : Timestamp}
    (hts : ts.picoseconds.toNat < picosPerSecond) :
    (WriteOp.write .extension ts (.extension { sweepStartId := some v })).encodes = true := by
  refine encodes_of_encodeBody rfl ?_ hts
  simp [length_beBytes, Header.words, maxPacketWords]

theorem encodes_tuned (f : Double) {ts : Timestamp} (hts : ts.picoseconds.toNat < picosPerSecond) :
    (WriteOp.write .receiver ts (.receiver { frequency := some f })).encodes = true := by
  refine encodes_of_encodeBody rfl ?_ hts
  simp [length_beBytes, Header.words, maxPacketWords]

theorem encodes_digitized (bw l : Double) {ts : Timestamp}
    (hts : ts.picoseconds.toNat < picosPerSecond) :
    (WriteOp.write .digitizer ts
      (.digitizer { bandwidth := some bw, referenceLevel := some l })).encodes = true := by
  refine encodes_of_encodeBody rfl ?_ hts
  simp [length_beBytes, Header.words, maxPacketWords]

theorem encodes_data {vs : List Int16} (heven : vs.length % 2 = 0)
    (hlen : vs.length ≤ maxSamplesPerPacket) (t : Trailer) {ts : Timestamp}
    (hts : ts.picoseconds.toNat < picosPerSecond) :
    (WriteOp.write .i16 ts (.ifData { samples := .real16 vs, trailer := some t })).encodes = true := by
  have hbody : encodeBody .i16 (.ifData { samples := .real16 vs, trailer := some t }) =
      .ok (vs.flatMap halfWordBytes ++ beBytes 4 t.toWord, true) := by
    simp [encodeBody, encodeSamples, heven, StreamId.sampleType?, Samples.sampleType]
  refine encodes_of_encodeBody hbody ?_ hts
  -- two bytes a sample and a trailer word: far below the largest packet
  have hbytes : (vs.flatMap halfWordBytes ++ beBytes 4 t.toWord).length = 2 * vs.length + 4 := by
    simp [length_beBytes, length_halfWordBytes, Nat.mul_comm]
  rw [hbytes]
  unfold maxSamplesPerPacket at hlen
  simp only [Header.words, maxPacketWords]
  omega

/-! ## The samples of a data packet -/

theorem size_toneSamples (c : SimConfig) (p : Profile) (fc n : ℕ) :
    (Simulator.toneSamples c p fc n).size = n := by
  unfold Simulator.toneSamples
  split
  · simp
  · dsimp only
    split <;> simp

/-- Drawing the samples of a packet moves the noise generator on only, and gives as many samples
as asked for. -/
theorem samples_run (p : Profile) (fc n : ℕ) (s : Simulator) :
    ∃ vs k, (Simulator.samples p fc n).run.run s = (.ok vs, { s with drawn := k }) ∧
      vs.length = n := by
  have htone := size_toneSamples s.config p fc n
  unfold Simulator.samples
  rw [run_bind_ok (Sends.get s).run]
  dsimp only
  split
  · -- with noise, one draw per sample
    refine ⟨_, s.drawn + (Simulator.toneSamples s.config p fc n).toList.length, rfl, ?_⟩
    rw [List.length_map, Simulator.addNoise, List.length_mapIdx, Array.length_toList, htone]
  · refine ⟨_, s.drawn, rfl, ?_⟩
    rw [List.length_map, Array.length_toList, htone]

/-! ## Loops -/

/-- A loop whose body sends the same emissions for an element from every state of one
configuration sends them element after element. -/
theorem forIn_sends {β : Type} {c : SimConfig} {f : β → PUnit → SimM (ForInStep PUnit)}
    (es : β → List Emission) :
    ∀ (xs : List β),
      (∀ x ∈ xs, ∀ s, s.config = c → ∃ s', Sends (f x ⟨⟩) s (.yield ⟨⟩) (es x) s') →
      ∀ (s : Simulator), s.config = c → ∃ s', Sends (forIn xs ⟨⟩ f) s ⟨⟩ (xs.flatMap es) s'
  | [], _, s, _ => ⟨s, by rw [List.forIn_nil]; exact Sends.pure s PUnit.unit⟩
  | x :: xs, hf, s, hc => by
    obtain ⟨s₁, h₁⟩ := hf x List.mem_cons_self s hc
    obtain ⟨s₂, h₂⟩ :=
      forIn_sends es xs (fun y hy => hf y (List.mem_cons_of_mem x hy)) s₁ (h₁.config.trans hc)
    refine ⟨s₂, ?_⟩
    rw [List.forIn_cons, List.flatMap_cons]
    exact h₁.bind h₂

/-! ## The packets of an entry -/

/-- The packets of one tuning: the receiver context with the center, the digitizer context with
the bandwidth and the reference level, and the data packets. -/
def tuningEmissions (bandwidth : ℕ) (level : Double) (ppb spp center : ℕ) : List Emission :=
  .tuned center :: .digitized bandwidth level :: List.replicate ppb (.data spp)

/-- The tunings of an entry from step `step` on, each at its center reduced to a machine word,
with the reference level of the configuration. -/
theorem emitTunings_sends (p : Profile) (e : SimEntry) (heven : e.spp % 2 = 0)
    (hmax : e.spp ≤ maxSamplesPerPacket) :
    ∀ (count step : ℕ) (s : Simulator), ∃ s', Sends (Simulator.emitTunings p e count step) s ()
      ((List.range count).flatMap fun i => tuningEmissions p.fullBw s.config.referenceLevel
        (max e.ppb 1) e.spp ((e.fcstart + (step + i) * e.fstep) % 2 ^ 64)) s'
  | 0, step, s => ⟨s, Sends.pure s ()⟩
  | count + 1, step, s => by
    rw [Simulator.emitTunings]
    apply Sends.exists_of_exists_eq
    -- the receiver context, then the digitizer context, both stamped with the same time
    refine Sends.get_bind ?_
    dsimp only
    refine Sends.bind_of (emit_sends (.tuned ((e.fcstart + step * e.fstep) % 2 ^ 64)) s
      (encodes_tuned _ (picoseconds_timestamp s)) fun q hs hb => ⟨hs, hb⟩) fun s₁ h₁ => ?_
    refine Sends.get_bind ?_
    refine Sends.bind_of (emit_sends (.digitized p.fullBw s₁.config.referenceLevel) s₁
      (encodes_digitized _ _ (picoseconds_timestamp s)) fun q hs hb => ⟨hs, hb⟩) fun s₂ h₂ => ?_
    refine Sends.bind_of (forIn_sends (fun _ => [Emission.data e.spp])
      (List.range (max e.ppb 1)) ?block s₂ rfl) fun s₃ h₃ => ?rest
    case block =>
      -- one data packet: fresh samples, stamped with the clock, then the clock advances
      intro x _ st hst
      apply Sends.exists_of_exists_eq
      obtain ⟨vs, r, hrun, hlen⟩ := samples_run p ((e.fcstart + step * e.fstep) % 2 ^ 64) e.spp st
      refine Sends.bind_of ⟨_, Sends.quiet hrun rfl rfl⟩ fun s₄ _ => ?_
      refine Sends.get_bind ?_
      refine Sends.bind_of (emit_sends (.data e.spp) s₄
        (encodes_data (hlen ▸ heven) (hlen ▸ hmax) _ (picoseconds_timestamp s₄))
        fun q hs hb => ⟨hs, vs, _, hb, hlen, rfl, rfl⟩) fun s₅ _ => ?_
      exact ⟨[], _, Sends.quiet rfl rfl rfl, by simp⟩
    case rest =>
      -- the later tunings, by recursion, after this one's data packets
      obtain ⟨s₄, h₄⟩ := emitTunings_sends p e heven hmax count (step + 1) s₃
      refine ⟨_, s₄, h₄, ?_⟩
      have hc₁ : s₁.config = s.config := h₁.config
      have hc₃ : s₃.config = s.config := h₃.config.trans (h₂.config.trans hc₁)
      rw [hc₁, hc₃, List.range_succ_eq_map, List.flatMap_cons, List.flatMap_map]
      simp [tuningEmissions, List.flatMap_def, List.map_const', Nat.add_assoc, Nat.add_comm 1]

/-- What the simulator emits for one entry: one tuning per step, from its first center on. -/
def SimEntry.emissions (bandwidth : ℕ) (level : Double) (e : SimEntry) : List Emission :=
  (List.range (Simulator.SimEntry.tunings e)).flatMap fun i =>
    tuningEmissions bandwidth level (max e.ppb 1) e.spp ((e.fcstart + i * e.fstep) % 2 ^ 64)

/-- Emitting leaves the entry list and the iteration count alone. -/
theorem emit_frame {id : StreamId} {ts : Timestamp} {body : Body} {s s' : Simulator}
    (h : (Simulator.emit id ts body).run.run s = (.ok (), s')) :
    s'.entries = s.entries ∧ s'.iterations = s.iterations := by
  unfold Simulator.emit at h
  rw [run_bind_ok (Sends.get s).run] at h
  split at h
  · obtain ⟨-, rfl⟩ := Prod.mk.inj h
    exact ⟨rfl, rfl⟩
  · cases h

theorem emitEntry_sends (p : Profile) (e : SimEntry) (heven : e.spp % 2 = 0)
    (hmax : e.spp ≤ maxSamplesPerPacket) (s : Simulator) :
    ∃ s', Sends (Simulator.emitTunings p e (Simulator.SimEntry.tunings e) 0) s ()
      (e.emissions p.fullBw s.config.referenceLevel) s' := by
  have h := emitTunings_sends p e heven hmax (Simulator.SimEntry.tunings e) 0 s
  simp only [Nat.zero_add] at h
  exact h

/-- Starting a sweep in a mode that has a profile sends the marker and then, for every
iteration, the tunings of every saved entry. -/
theorem startSweep_sends {s : Simulator} {mode : RfeMode} {prop : Profile}
    (hmode : s.mode = some mode) (hprop : Profile.forMode mode = .ok prop)
    (hfit : ∀ e ∈ s.entries.toList, e.spp % 2 = 0 ∧ e.spp ≤ maxSamplesPerPacket) :
    ∃ s', Sends Simulator.startSweep s ()
      (.marker :: (List.range (max s.iterations 1)).flatMap fun _ =>
        s.entries.toList.flatMap (SimEntry.emissions prop.fullBw s.config.referenceLevel)) s' := by
  unfold Simulator.startSweep
  apply Sends.exists_of_exists_eq
  refine Sends.get_bind ?_
  simp only [hmode, hprop, pure_bind]
  refine Sends.quiet_bind rfl rfl rfl ?_
  refine Sends.get_bind ?_
  refine Sends.bind_of (emit_sends .marker _ (encodes_marker _ (picoseconds_timestamp _))
    fun q hs hb => ⟨hs, _, hb⟩) fun s₁ h₁ => ?_
  refine Sends.get_bind ?_
  refine Sends.get_bind ?_
  have hentries : s₁.entries = s.entries := (emit_frame h₁.run).1
  have hiter : s₁.iterations = s.iterations := (emit_frame h₁.run).2
  rw [hentries, hiter]
  -- every iteration runs through the whole entry list
  refine Sends.bind_of (forIn_sends (fun _ => s.entries.toList.flatMap
    (SimEntry.emissions prop.fullBw s.config.referenceLevel)) (List.range (max s.iterations 1))
    ?sweep s₁ h₁.config) fun s₂ _ => ⟨[], s₂, Sends.pure s₂ (), by simp⟩
  case sweep =>
    intro x _ st hst
    apply Sends.exists_of_exists_eq
    rw [← Array.forIn_toList]
    refine Sends.bind_of (forIn_sends (SimEntry.emissions prop.fullBw s.config.referenceLevel)
      s.entries.toList ?entry st hst) fun s₃ _ => ⟨[], s₃, Sends.pure s₃ _, by simp⟩
    case entry =>
      intro e he st' hst'
      apply Sends.exists_of_exists_eq
      obtain ⟨heven, hmax⟩ := hfit e he
      refine Sends.bind_of (emitEntry_sends prop e heven hmax st') fun s₄ _ =>
        ⟨[], s₄, Sends.pure s₄ _, by simp [hst']⟩

/-! ## Counting data packets -/

theorem Emission.Fits.isData {e : Emission} {q : Packet} (h : e.Fits q) :
    q.body.isData = e.isData := by
  cases e with
  | marker => obtain ⟨-, _, hb⟩ := h; simp [hb, Body.isData, Emission.isData]
  | tuned c => obtain ⟨-, hb⟩ := h; simp [hb, Body.isData, Emission.isData]
  | digitized bw l => obtain ⟨-, hb⟩ := h; simp [hb, Body.isData, Emission.isData]
  | data n => obtain ⟨-, _, _, hb, -⟩ := h; simp [hb, Body.isData, Emission.isData]

theorem length_data_of_fits {es : List Emission} {qs : List Packet}
    (h : List.Forall₂ Emission.Fits es qs) :
    (qs.filter fun q => q.body.isData).length = (es.filter Emission.isData).length := by
  induction h with
  | nil => rfl
  | cons hq _ ih =>
    rw [List.filter_cons, List.filter_cons, hq.isData]
    split <;> simp [ih]

theorem length_data_tunings (bandwidth : ℕ) (level : Double) (ppb spp : ℕ) (cs : List ℕ) :
    ((cs.flatMap (tuningEmissions bandwidth level ppb spp)).filter Emission.isData).length =
      cs.length * ppb := by
  induction cs with
  | nil => simp
  | cons c cs ih =>
    simp [tuningEmissions, Emission.isData, List.filter_replicate, ih, Nat.succ_mul, Nat.add_comm]

/-! ## Plans as the simulator sweeps them -/

/-- The simulator's tunings of a plan entry are its centers. -/
theorem SimEntry.tunings_ofPlan (e : PlanEntry) :
    Simulator.SimEntry.tunings (SimEntry.ofPlan e) = e.tunings := by
  unfold Simulator.SimEntry.tunings PlanEntry.tunings SimEntry.ofPlan
  simp only [or_comm]

theorem SimEntry.emissions_ofPlan (bandwidth : ℕ) (level : Double) (e : PlanEntry)
    (hppb : 1 ≤ e.packetsPerBlock) (hc : ∀ c ∈ e.centers, c < 2 ^ 64) :
    (SimEntry.ofPlan e).emissions bandwidth level =
      e.centers.flatMap (tuningEmissions bandwidth level e.packetsPerBlock e.samplesPerPacket) := by
  rw [SimEntry.emissions, SimEntry.tunings_ofPlan, PlanEntry.centers, List.flatMap_map]
  apply List.flatMap_congr
  intro i hi
  -- a center below 2^64 is its own residue
  have hlt : e.fcstart + i * e.fstep < 2 ^ 64 := hc _ (List.mem_map_of_mem hi)
  simp only [SimEntry.ofPlan, max_eq_left hppb, Nat.mod_eq_of_lt hlt]

end SweptSpectrum.Instrument

namespace SweptSpectrum.Sweep

/-! ## Plans the instrument can take -/

theorem Profile.sampleType_eq {p : Profile} (h : p ∈ Profile.all) : p.sampleType = .i16 := by
  simp only [Profile.all, List.mem_cons, List.not_mem_nil, or_false] at h
  rcases h with rfl | rfl <;> rfl

/-- What loading and sweeping need of a plan: entries whose numbers fit the instrument's
argument types and whose centers are machine words, one packet a tuning, and an even number of
samples a packet that the instrument accepts. -/
structure SweepPlan.Loadable (cfg : SweepPlan) : Prop where
  fits : ∀ e ∈ cfg.entries, Instrument.EntryFits e
  words : ∀ e ∈ cfg.entries, ∀ c ∈ e.centers, c < 2 ^ 64
  shape : ∀ e ∈ cfg.entries, e.samplesPerPacket = cfg.samplesPerPacket ∧ e.packetsPerBlock = 1
  even : cfg.samplesPerPacket % 2 = 0
  size_le : cfg.samplesPerPacket ≤ maxSamplesPerPacket

theorem plan_loadable {fstart fstop : ℕ} {rbw : Double} {mode : RfeMode} {cfg : SweepPlan}
    (h : plan fstart fstop rbw mode = .ok cfg) : cfg.Loadable := by
  obtain ⟨t, ht, -, -, -, hsize, -, hentries, -, -⟩ := plan_eq_ok h
  obtain ⟨hp, -, hfcstop, -, hmax, -, -⟩ := tune_eq_ok ht
  have hprop := Profile.mem_of_forMode hp
  have hs := Profile.usableBw_pos hprop
  obtain ⟨hfull, -, -, hLR, hRF, -, hmaxT⟩ := Profile.stitch_bounds hprop
  obtain ⟨k, hk, hk8, -⟩ := plan_size_pow_two ht
  rw [← hsize] at hk
  obtain ⟨-, -, htun, -⟩ :=
    planEntries_centers_span t.fcstart t.fcstop cfg.samplesPerPacket hs (by omega) hmax
  -- every center is tunable, hence a machine word
  have hword : ∀ e ∈ cfg.entries, ∀ c ∈ e.centers, c < 2 ^ 64 := by
    intro e he c hc
    rw [hentries] at he
    have := (htun c (List.mem_flatMap.mpr ⟨e, he, hc⟩)).2
    omega
  have hsize_le : cfg.samplesPerPacket ≤ maxSamplesPerPacket := hsize ▸ min_le_right _ _
  have hu : ∀ n, n < 2 ^ 64 → n ≤ maxU64 := fun n hn => by unfold maxU64; omega
  refine ⟨fun e he => ?fits, hword, fun e he => ?shape, ?even, hsize_le⟩
  case fits =>
    -- the first and last centers of a run are among its centers
    have hw := hword e he
    rw [hentries] at he
    obtain ⟨c, j, rfl⟩ := planEntries_runs _ _ _ _ e he
    rw [PlanEntry.centers_run c j _ _ _ hs] at hw
    have hfirst := hw c (List.mem_map.mpr ⟨0, by simp, by simp⟩)
    have hlast := hw _ (List.mem_map.mpr ⟨j, List.mem_range.mpr (Nat.lt_succ_self j), rfl⟩)
    unfold maxSamplesPerPacket at hsize_le
    exact ⟨hu c hfirst, hu _ hlast, hu t.profile.usableBw (by omega),
      hu cfg.samplesPerPacket (by omega), (by decide : 1 ≤ Text.maxUnsigned 32)⟩
  case shape =>
    rw [hentries] at he
    obtain ⟨c, j, rfl⟩ := planEntries_runs _ _ _ _ e he
    exact ⟨rfl, rfl⟩
  case even =>
    obtain ⟨j, rfl⟩ : ∃ j, k = j + 1 := ⟨k - 1, by omega⟩
    rw [hk, Nat.pow_succ, Nat.mul_mod_left]

end SweptSpectrum.Sweep

namespace SweptSpectrum.Instrument

open Vrt Sweep

/-! ## A loaded plan is the sweep the simulator sends -/

theorem length_data_entries (bandwidth : ℕ) (level : Double) (spp : ℕ) (E : List PlanEntry) :
    ((E.flatMap fun e => e.centers.flatMap
      (tuningEmissions bandwidth level e.packetsPerBlock spp)).filter Emission.isData).length =
      (E.map PlanEntry.packetCount).sum := by
  induction E with
  | nil => simp
  | cons e E ih =>
    rw [List.flatMap_cons, List.filter_append, List.length_append, ih, length_data_tunings,
      PlanEntry.length_centers, List.map_cons, List.sum_cons]
    rfl

/-- A plan the planner returns, loaded into a simulator in any state with an attenuation that
fits its 32-bit argument, leaves one saved entry per plan entry and that attenuation. Starting
the sweep then queues exactly the marker followed, for each center of the plan in order, by the
receiver context at the center, the digitizer context with the mode's full bandwidth and the
configured reference level, and the entry's blocks of data packets on the stream of the mode's
samples, as many in all as the plan counts. -/
theorem loadPlan_start_emits_plan {fstart fstop : ℕ} {rbw : Double} {mode : RfeMode}
    {cfg : SweepPlan} (h : plan fstart fstop rbw mode = .ok cfg) {att : ℕ}
    (hatt : att ≤ Text.maxUnsigned 32) (d : Descriptor) (s : Simulator) :
    ∃ prop, Profile.forMode mode = .ok prop ∧ StreamId.i16.sampleType? = some prop.sampleType ∧
      ∃ s₁, (loadPlan cfg att d : Control Simulator Unit).run.run s = (.ok (), s₁) ∧
        s₁.entryCount = cfg.entries.length ∧ s₁.attenuation = some att ∧
        ∃ s₂ qs, (start : Control Simulator Unit).run.run s₁ = (.ok (), s₂) ∧
          List.Forall₂ (fun q bs => Packet.encode q = .ok bs) qs s₂.queue.toList ∧
          List.Forall₂ Emission.Fits (.marker :: cfg.entries.flatMap fun e =>
            e.centers.flatMap (tuningEmissions prop.fullBw s.config.referenceLevel
              e.packetsPerBlock cfg.samplesPerPacket)) qs ∧
          (qs.filter fun q => q.body.isData).length = cfg.packetTotal := by
  obtain ⟨t, ht, hmode, -, -, -, -, -, htotal, -⟩ := plan_eq_ok h
  obtain ⟨hp, -⟩ := tune_eq_ok ht
  have hprop := Profile.mem_of_forMode hp
  have hL := plan_loadable h
  obtain ⟨s₁, hload, hl⟩ := loadPlan_run hL.fits hatt d s
  have hfit : ∀ e ∈ s₁.entries.toList, e.spp % 2 = 0 ∧ e.spp ≤ maxSamplesPerPacket := by
    intro e he
    rw [hl.entries] at he
    obtain ⟨pe, hpe, rfl⟩ := List.mem_map.mp he
    rw [show (SimEntry.ofPlan pe).spp = cfg.samplesPerPacket from (hL.shape pe hpe).1]
    exact ⟨hL.even, hL.size_le⟩
  obtain ⟨s₂, hs₂⟩ := startSweep_sends (s := { s₁ with history := s₁.history.push "SWEEP:LIST:START" })
    (hl.mode.trans (congrArg some hmode)) hp hfit
  obtain ⟨qs, chunks, hq, henc, hfits⟩ := hs₂.queue
  dsimp only at hfits hq
  -- one iteration over the saved entries, which are the plan's
  have hes : (List.range (max s₁.iterations 1)).flatMap (fun _ => s₁.entries.toList.flatMap
      (SimEntry.emissions t.profile.fullBw s₁.config.referenceLevel)) =
      cfg.entries.flatMap fun e => e.centers.flatMap (tuningEmissions t.profile.fullBw
        s.config.referenceLevel e.packetsPerBlock cfg.samplesPerPacket) := by
    rw [hl.iterations, hl.entries, hl.config, List.flatMap_map, max_self, List.range_one,
      List.flatMap_singleton]
    apply List.flatMap_congr
    intro e he
    obtain ⟨hspp, hppb⟩ := hL.shape e he
    rw [SimEntry.emissions_ofPlan _ _ e (by omega) (hL.words e he), hspp]
  rw [hes] at hfits
  refine ⟨t.profile, hp, by rw [Profile.sampleType_eq hprop]; rfl, s₁, hload, ?count, hl.attenuation,
    s₂, qs, (start_run s₁).trans hs₂.run, ?encoded, hfits, ?data⟩
  case count => rw [Simulator.entryCount, ← Array.length_toList, hl.entries, List.length_map]
  case encoded =>
    -- loading flushed the queue, so it holds the sweep's packets only
    rw [hq, hl.queue]
    exact henc
  case data =>
    rw [length_data_of_fits hfits, List.filter_cons_of_neg (by simp [Emission.isData]),
      length_data_entries, htotal]

/-- The SHN plan for 2400 MHz to 2410.0001 MHz tunes twice: loaded into a fresh simulator with
the command's noise generator and 10 dB of attenuation and started, it queues two data
packets. -/
theorem loadPlan_start_emits_plan_shn :
    ∃ cfg, plan 2400000000 2410000100 100000 .shn = .ok cfg ∧ cfg.packetTotal = 2 ∧
      ∃ s₁, (loadPlan cfg 10
          { manufacturer := "SIM", model := "WSA5000-427", serial := "SIM-0001",
            firmware := "4.5.5", maxTuneFreq := 27000000000 } :
          Control Simulator Unit).run.run (Simulator.new Backend.chachaDraws {}) = (.ok (), s₁) ∧
        s₁.attenuation = some 10 ∧
        ∃ s₂ qs, (start : Control Simulator Unit).run.run s₁ = (.ok (), s₂) ∧
          List.Forall₂ (fun q bs => Packet.encode q = .ok bs) qs s₂.queue.toList ∧
          (qs.filter fun q => q.body.isData).length = 2 := by
  have hv : (plan 2400000000 2410000100 100000 .shn).toOption.map SweepPlan.packetTotal =
      some 2 := by
    decide +kernel
  cases hplan : plan 2400000000 2410000100 100000 .shn with
  | error e => simp [hplan, Except.toOption] at hv
  | ok cfg =>
    have htotal : cfg.packetTotal = 2 := by simpa [hplan, Except.toOption] using hv
    obtain ⟨-, -, -, s₁, hload, -, hatt, s₂, qs, hstart, henc, -, hdata⟩ :=
      loadPlan_start_emits_plan hplan (by decide : 10 ≤ Text.maxUnsigned 32)
        { manufacturer := "SIM", model := "WSA5000-427", serial := "SIM-0001", firmware := "4.5.5",
          maxTuneFreq := 27000000000 } (Simulator.new Backend.chachaDraws {})
    exact ⟨cfg, rfl, htotal, s₁, hload, hatt, s₂, qs, hstart, henc, hdata.trans htotal⟩

end SweptSpectrum.Instrument
