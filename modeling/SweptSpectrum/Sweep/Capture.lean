import SweptSpectrum.Sweep.Plan
import SweptSpectrum.Dsp.Analyzer
import SweptSpectrum.Vrt.Reader

/-!
Assembling a power spectrum from the packets of a sweep.

Context packets set the tuned frequency and the reference level for the data packets that
follow. Each data packet is windowed and transformed in the working buffer of the capture's
analyzer, which is kept from packet to packet, and converted to dB; its usable bins are
written into the spectrum buffer at the offset that corresponds to the tuned frequency: the
left edge of the usable band, `fcenter - usableBw / 2`, measured from `fstart` in bins. The
last step's bins beyond the end of the buffer are dropped.

Before a capture the buffer is filled with `poisonValue`, so that bins no packet wrote can be
counted afterwards.
-/

namespace SweptSpectrum.Sweep

open Vrt Dsp

/-- A spectrum buffer in dB per bin. -/
abbrev Spectrum := Array Float32

/-- A fresh spectrum buffer of `bins` bins, none written. -/
def poisonedSpectrum (bins : Nat) : Spectrum := Array.replicate bins poisonValue

/-- The number of bins no capture wrote. -/
def unfilledBins (s : Spectrum) : Nat := s.toList.countP (· == poisonValue)

/-- The state of one capture. -/
structure Capture where
  profile : Profile
  analyzer : Analyzer
  /-- the tuned frequency of the last receiver context, Hz -/
  fcenter : Option Double := none
  /-- the reference level of the last digitizer context, dB -/
  reflevel : Double := 0
  /-- data packets handled -/
  received : Nat := 0

namespace Capture

/-- A capture for a plan, transforming with `fft`. -/
def new (fft : Fft) (p : SweepPlan) : SweepResult Capture := do
  let profile ← p.profile
  let analyzer ← liftLink (Analyzer.new fft p.samplesPerPacket)
  return { profile, analyzer }

/-- Whether every data packet of the plan has been handled. -/
def isComplete (c : Capture) (p : SweepPlan) : Bool := c.received ≥ p.packetTotal

/-- Writes `count` bins of the spectrum in the analyzer, bin `istart + i` at `offset + i`, for
`i` from `i` on. -/
def writeBins (a : Analyzer) (reflevel : Float32) (istart offset : Nat) :
    Nat → Nat → Spectrum → Spectrum
  | 0, _, buf => buf
  | count + 1, i, buf =>
    writeBins a reflevel istart offset count (i + 1)
      (buf.setIfInBounds (offset + i) (a.binPower (istart + i) + reflevel))

/-- Where the bins of a data packet go: the analyzer holding its spectrum, the first usable
bin, the offset in the buffer and how many to write. -/
structure Placement where
  analyzer : Analyzer
  istart : Nat
  offset : Nat
  count : Nat

/-- Transforms a data packet and places its usable bins in a buffer of `len` bins. -/
def place (c : Capture) (p : SweepPlan) (d : IfData) (len : Nat) : SweepResult Placement := do
  let some fcenter := c.fcenter | throw (.missingContext "receiver frequency")
  if d.samples.length ≠ p.samplesPerPacket then
    throw (.sampleCountMismatch p.samplesPerPacket d.samples.length)
  let a ← liftLink (c.analyzer.process d.samples)
  let inverted := d.spectralInversion
  let a := if inverted then a.reverse else a
  let (istart, istop) := c.profile.usableBins p.rbw inverted
  let leftEdge := fcenter - Double.ofNat c.profile.usableBw / 2
  let offset := ((leftEdge - Double.ofNat p.fstart) / p.rbw).floor.toInt64
  if offset < 0 ∨ offset.toNat ≥ len then throw (.spectrumOutOfBounds offset len)
  return ⟨a, istart, offset.toNat, min (istop - istart) (len - offset.toNat)⟩

/-- Handles one decoded packet; the buffer is left as it is when the packet is refused. -/
def handlePacket (c : Capture) (p : SweepPlan) (pkt : Packet) (buf : Spectrum) :
    SweepResult Capture × Spectrum :=
  match pkt.body with
  | .receiver ctx => (.ok { c with fcenter := ctx.frequency.orElse fun _ => c.fcenter }, buf)
  | .digitizer ctx => (.ok { c with reflevel := ctx.referenceLevel.getD c.reflevel }, buf)
  | .extension _ => (.ok c, buf)
  | .ifData d =>
    match c.place p d buf.size with
    | .error e => (.error e, buf)
    | .ok pl =>
      (.ok { c with analyzer := pl.analyzer, received := c.received + 1 },
       writeBins pl.analyzer c.reflevel.toFloat32 pl.istart pl.offset pl.count 0 buf)

end Capture

/-- What a capture leaves behind: its result, the reader, the buffer and the number of data
packets handled. -/
structure CaptureOutcome (σ : Type) where
  result : SweepResult Unit
  reader : Reader σ
  spectrum : Spectrum
  received : Nat

/-- Reads and handles packets until the capture is complete, at most `fuel` packets. -/
def runCapture {σ : Type} [DataChannel σ] (p : SweepPlan) :
    Nat → Capture → Reader σ → Spectrum → CaptureOutcome σ
  | 0, c, r, buf => ⟨.ok (), r, buf, c.received⟩
  | fuel + 1, c, r, buf =>
    if c.isComplete p then ⟨.ok (), r, buf, c.received⟩
    else match r.readPacket with
      | (.error e, r) => ⟨.error (.device e), r, buf, c.received⟩
      | (.ok pkt, r) => match c.handlePacket p pkt buf with
        | (.error e, buf) => ⟨.error e, r, buf, c.received⟩
        | (.ok c, buf) => runCapture p fuel c r buf

/-- Fills a poisoned buffer from a sweep already running on the reader's channel, transforming
with `fft`. Every packet read takes pending bytes from the channel, so their count bounds the
reads. -/
def capturePowerSpectrum {σ : Type} [DataChannel σ] (fft : Fft) (p : SweepPlan) (r : Reader σ) :
    CaptureOutcome σ :=
  let buf := poisonedSpectrum p.bins
  match Capture.new fft p with
  | .error e => ⟨.error e, r, buf, 0⟩
  | .ok c => runCapture p (DataChannel.pending r.channel + 1) c r buf

/-- The log line that ends a capture. -/
def captureSummary (received unfilled bins : Nat) : String :=
  if unfilled > 0 then
    s!"Capture finished: {received} packets, {unfilled} of {bins} bins not written"
  else s!"Capture finished: {received} packets, {bins} bins"

theorem size_writeBins (a : Analyzer) (reflevel : Float32) (istart offset : Nat) :
    ∀ count i buf, (Capture.writeBins a reflevel istart offset count i buf).size = buf.size := by
  intro count
  induction count with
  | zero => intro i buf; rfl
  | succ n ih => intro i buf; simp [Capture.writeBins, ih]

end SweptSpectrum.Sweep
