import SweptSpectrum.Sweep.Profile
import SweptSpectrum.Double.Log

/-!
Sweep planning: turning a requested band and resolution into instrument tunings.

The instrument digitizes a full band around each tuned frequency but only the middle
`usableBw` of it is trusted. A plan picks centers so that the usable parts of consecutive
steps meet edge to edge and cover `[fstart, fstop)`: the first center is `fstart` plus half
the usable width, rounded up to the tuning resolution, and the centers advance by the usable
width. When the last center would pass the highest tunable frequency, the centers that fit
form one entry and a second entry tunes once, to the last center wanted.

The FFT size is the smallest power of two whose bin width `fullBw / size` does not exceed the
requested resolution, clamped to what the instrument accepts.
-/

namespace SweptSpectrum.Sweep

/-- The largest value of a 64-bit unsigned integer. -/
def maxU64 : Nat := 2 ^ 64 - 1

/-- A frequency or count as a double, rounded to nearest as a 64-bit integer conversion is. -/
def asFloat (n : Nat) : Float := n.toUInt64.toFloat

/-- One sweep list entry: centers from `fcstart` to `fcstop` in steps of `fstep`. -/
structure PlanEntry where
  fcstart : Nat
  fcstop : Nat
  fstep : Nat
  samplesPerPacket : Nat
  packetsPerBlock : Nat
  deriving Repr, DecidableEq

namespace PlanEntry

/-- The number of tunings of the entry, the first one included. -/
def tunings (e : PlanEntry) : Nat :=
  if e.fcstop ≤ e.fcstart ∨ e.fstep = 0 then 1 else (e.fcstop - e.fcstart) / e.fstep + 1

/-- The tuned frequencies in order. -/
def centers (e : PlanEntry) : List Nat :=
  (List.range e.tunings).map fun i => e.fcstart + i * e.fstep

/-- The number of data packets the entry makes an instrument send. -/
def packetCount (e : PlanEntry) : Nat := e.tunings * e.packetsPerBlock

theorem length_centers (e : PlanEntry) : e.centers.length = e.tunings := by
  simp [centers]

end PlanEntry

/-- A planned capture of a power spectrum. -/
structure SweepPlan where
  mode : RfeMode
  /-- lower edge of the requested band, Hz -/
  fstart : Nat
  /-- upper edge of the requested band, Hz -/
  fstop : Nat
  /-- achieved resolution, `fullBw / samplesPerPacket` -/
  rbw : Double
  /-- the resolution asked for -/
  requestedRbw : Double
  samplesPerPacket : Nat
  packetsPerBlock : Nat
  entries : List PlanEntry
  /-- data packets an instrument sends for the whole sweep -/
  packetTotal : Nat
  /-- the length of the spectrum buffer -/
  bins : Nat
  /-- the FFT size the resolution asked for, before clamping to the instrument maximum -/
  fftSizeWanted : Nat
  deriving Repr

namespace SweepPlan

/-- The frequency of the left edge of a bin, Hz. -/
def binFrequency (p : SweepPlan) (bin : Nat) : Double := Double.ofNat p.fstart + Double.ofNat bin * p.rbw

/-- The profile of the plan's mode. -/
def profile (p : SweepPlan) : SweepResult Profile := Profile.forMode p.mode

/-- Whether the FFT size was clamped to the instrument maximum. -/
def clamped (p : SweepPlan) : Bool := p.fftSizeWanted > maxSamplesPerPacket

/-- The tuned frequencies of the whole sweep, entry after entry. -/
def centers (p : SweepPlan) : List Nat := p.entries.flatMap PlanEntry.centers

end SweepPlan

/-- The smallest power of two `size` with `fullBw / size ≤ rbw`, or 2^62 when that is beyond
a machine word. -/
def fftSizeFor (fullBw : Nat) (rbw : Double) : Nat :=
  let e := Double.maxNum (Double.ofNat fullBw / rbw).log2.ceil 0
  if e ≥ 63 then 2 ^ 62 else 2 ^ e.toUInt64

/-- `value` rounded up to a multiple of `step`, if that fits in 64 bits. -/
def roundUp (value step : Nat) : Option Nat :=
  let r := (value + step - 1) / step * step
  if r ≤ maxU64 then some r else none

/-- The entries of a plan: one run of centers, and a lone center past the tuning limit if the
run cannot reach it. -/
def planEntries (prop : Profile) (fcstart fcstop size : Nat) : List PlanEntry :=
  let fstep := prop.usableBw
  let steps := (fcstop - fcstart + fstep - 1) / fstep
  let lastCenter := fcstart + steps * fstep
  if lastCenter ≤ prop.maxTunable then
    [⟨fcstart, lastCenter, fstep, size, 1⟩]
  else
    let inRange := (prop.maxTunable - fcstart) / fstep
    [⟨fcstart, fcstart + inRange * fstep, fstep, size, 1⟩, ⟨fcstop, fcstop, fstep, size, 1⟩]

/-- What planning settles before the band is laid out: the profile of the mode, the first and
last centers, and the FFT size the resolution asks for, before clamping. -/
structure Tuning where
  profile : Profile
  fcstart : Nat
  fcstop : Nat
  fftSizeWanted : Nat

/-- The tuning of the band `[fstart, fstop)` at resolution `rbw`: the checks of the request,
the centers, and the FFT size wanted, which must reach the instrument minimum. -/
def tune (fstart fstop : Nat) (rbw : Double) (mode : RfeMode) : SweepResult Tuning := do
  let prop ← Profile.forMode mode
  if !(rbw.isFinite && rbw > 0) then throw (.invalidRbw rbw)
  if fstart > fstop then
    throw (.frequencyOutOfRange s!"fstart {fstart} Hz is above fstop {fstop} Hz")
  let half := prop.usableBw / 2
  let some fcstart := (if fstart + half ≤ maxU64 then roundUp (fstart + half) prop.tuningResolution
      else none)
    | throw (.frequencyOutOfRange s!"fstart {fstart} Hz overflows the tuning range")
  let fcstop := max (fstop - half) fcstart
  if fcstart < prop.minTunable then
    throw (.frequencyOutOfRange
      s!"first center {fcstart} Hz below minimum tunable {prop.minTunable} Hz")
  if fcstop > prop.maxTunable then
    throw (.frequencyOutOfRange
      s!"last center {fcstop} Hz above maximum tunable {prop.maxTunable} Hz")
  let wanted := fftSizeFor prop.fullBw rbw
  if wanted < minSamplesPerPacket then throw (.bandTooSmall wanted minSamplesPerPacket)
  return { profile := prop, fcstart, fcstop, fftSizeWanted := wanted }

/-- The plan for the band `[fstart, fstop)` at a resolution no coarser than the nearest
achievable one to `rbw`. -/
def plan (fstart fstop : Nat) (rbw : Double) (mode : RfeMode) : SweepResult SweepPlan := do
  let t ← tune fstart fstop rbw mode
  let size := min t.fftSizeWanted maxSamplesPerPacket
  let achieved := Double.ofNat t.profile.fullBw / Double.ofNat size
  let entries := planEntries t.profile t.fcstart t.fcstop size
  let bins := Profile.countOf (Double.ofNat (fstop - fstart) / achieved)
  if bins = 0 then
    throw (.frequencyOutOfRange ("band " ++ toString fstart ++ ".." ++ toString fstop ++
      " Hz is narrower than one " ++ Decimal.fixedDouble 3 achieved ++ " Hz bin"))
  return { mode, fstart, fstop, rbw := achieved, requestedRbw := rbw, samplesPerPacket := size,
           packetsPerBlock := 1, entries,
           packetTotal := (entries.map PlanEntry.packetCount).sum, bins,
           fftSizeWanted := t.fftSizeWanted }

/-- The FFT size wanted, when planning gets as far as clamping it to the instrument maximum. -/
def clampedFftSize? (fstart fstop : Nat) (rbw : Double) (mode : RfeMode) : Option Nat :=
  match tune fstart fstop rbw mode with
  | .ok t => if t.fftSizeWanted > maxSamplesPerPacket then some t.fftSizeWanted else none
  | .error _ => none

theorem planEntries_ne_nil (prop : Profile) (a b size : Nat) : planEntries prop a b size ≠ [] := by
  unfold planEntries
  dsimp only
  split <;> simp

end SweptSpectrum.Sweep
