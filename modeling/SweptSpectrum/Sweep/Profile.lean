import SweptSpectrum.Sweep.Mode
import SweptSpectrum.Sweep.Error
import SweptSpectrum.Vrt.Stream

/-!
Sweep profiles: what the instrument can do in each RF front-end mode.

Only the superheterodyne modes have a profile. In both, the instrument digitizes a full band
of 62.5 MHz around the tuned frequency, of which only the middle part is usable; the usable
part lies between `usableLeft` and `usableRight`, counted from the lower edge of the full band.
-/

namespace SweptSpectrum.Sweep

open Vrt

/-- The smallest number of samples per packet an instrument accepts. -/
def minSamplesPerPacket : Nat := 256

/-- The largest number of samples per packet an instrument accepts. -/
def maxSamplesPerPacket : Nat := 32768

/-- The value a spectrum bin holds until a capture writes it. -/
def poisonValue : Float32 := 99999.0

/-- The capabilities of an instrument in one mode; frequencies in hertz. -/
structure Profile where
  mode : RfeMode
  sampleType : SampleType
  fshiftAvailable : Bool
  minTunable : Nat
  maxTunable : Nat
  tuningResolution : Nat
  fullBw : Nat
  usableBw : Nat
  passbandCenter : Nat
  usableLeft : Nat
  usableRight : Nat
  minDecimation : Nat
  maxDecimation : Nat
  deriving Repr, DecidableEq

namespace Profile

/-- The narrow superheterodyne profile: 10 MHz usable. -/
def shn : Profile where
  mode := .shn
  sampleType := .i16
  fshiftAvailable := true
  minTunable := 50000000
  maxTunable := 27000000000
  tuningResolution := 10
  fullBw := 62500000
  usableBw := 10000000
  passbandCenter := 35000000
  usableLeft := 30000000
  usableRight := 40000000
  minDecimation := 4
  maxDecimation := 512

/-- The superheterodyne profile: 40 MHz usable. -/
def sh : Profile where
  mode := .sh
  sampleType := .i16
  fshiftAvailable := true
  minTunable := 50000000
  maxTunable := 27000000000
  tuningResolution := 10
  fullBw := 62500000
  usableBw := 40000000
  passbandCenter := 35000000
  usableLeft := 15000000
  usableRight := 55000000
  minDecimation := 4
  maxDecimation := 512

/-- Every profile. -/
def all : List Profile := [shn, sh]

/-- The profile of a mode, or `unsupportedMode`. -/
def forMode (mode : RfeMode) : SweepResult Profile :=
  match all.find? (fun p => p.mode = mode) with
  | some p => .ok p
  | none => .error (.unsupportedMode mode.name)

/-- Whether a mode has a profile. -/
def supports (mode : RfeMode) : Bool := all.any (fun p => p.mode = mode)

/-- A number truncated to a machine-sized count: negative numbers and a not-a-number give 0,
overflow saturates. -/
def countOf (x : Double) : Nat := x.toUInt64

/-- The usable bins `[istart, istop)` of an FFT with bin width `rbw`.

The edges are rounded outwards so that the usable parts of neighbouring sweep steps meet
without a gap. With spectral inversion the usable part is mirrored inside the full band. -/
def usableBins (p : Profile) (rbw : Double) (inverted : Bool) : Nat × Nat :=
  let (left, right) :=
    if inverted then (p.fullBw - p.usableRight, p.fullBw - p.usableLeft)
    else (p.usableLeft, p.usableRight)
  (countOf (Double.ofNat left / rbw).floor, countOf (Double.ofNat right / rbw).ceil)

theorem usable_width (p : Profile) (h : p ∈ all) : p.usableRight - p.usableLeft = p.usableBw := by
  simp only [all, List.mem_cons, List.not_mem_nil, or_false] at h
  rcases h with rfl | rfl <;> decide

end Profile

end SweptSpectrum.Sweep
