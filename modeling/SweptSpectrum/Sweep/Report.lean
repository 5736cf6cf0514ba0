import SweptSpectrum.Sweep.Capture
import SweptSpectrum.Dsp.Measure

/-!
The summary of a captured spectrum: the peak, the total power and the occupied bandwidth.

The peak is searched over the span covered by whole bins, `[fstart, binFrequency bins)`, not up
to `fstop`. The total power is the channel power of all bins, and the occupied bandwidth is the
width holding 99 % of the power.
-/

namespace SweptSpectrum.Sweep

open Dsp

/-- The share of power the occupied bandwidth holds, percent. -/
def occupiedPowerPercent : Float32 := 99.0

/-- A report on a captured spectrum. -/
structure Report where
  mode : String
  fstartHz : Nat
  fstopHz : Nat
  rbwHz : Float
  requestedRbwHz : Float
  fftSize : Nat
  sweepEntries : Nat
  bins : Nat
  peakFreqHz : Float
  peakPowerDb : Float32
  /-- the power in the whole band, dB -/
  totalPowerDb : Float32
  occupiedBwHz : Float
  /-- the power of every bin, dB -/
  powerDb : Array Float32

namespace Report

/-- The report on a plan's filled buffer. -/
def ofCapture (p : SweepPlan) (s : Spectrum) : SweepResult Report := do
  let spanEnd := (p.binFrequency s.size).toFloat
  let (peakFreqHz, peakPowerDb) ← liftLink (peakFind s (asFloat p.fstart) spanEnd)
  let totalPowerDb ← liftLink (channelPower s 0 s.size)
  let occupiedBwHz ← liftLink (occupiedBandwidth s p.rbw.toFloat occupiedPowerPercent)
  return { mode := p.mode.name, fstartHz := p.fstart, fstopHz := p.fstop, rbwHz := p.rbw.toFloat,
           requestedRbwHz := p.requestedRbw.toFloat, fftSize := p.samplesPerPacket,
           sweepEntries := p.entries.length, bins := s.size, peakFreqHz, peakPowerDb,
           totalPowerDb, occupiedBwHz, powerDb := s }

/-- A horizontal rule of the text form. -/
def rule : String := String.ofList (List.replicate 43 '━')

/-- The lines of the text form, rules included. -/
def lines (r : Report) : List String :=
  let mhz := fun (x : Float) => Decimal.fixedFloat 3 (x / 1e6)
  [rule,
   "  Mode          : " ++ r.mode,
   "  Span          : " ++ mhz (asFloat r.fstartHz) ++ " .. " ++ mhz (asFloat r.fstopHz) ++ " MHz",
   "  RBW           : " ++ Decimal.fixedFloat 3 (r.rbwHz / 1e3) ++ " kHz (requested " ++
     Decimal.fixedFloat 3 (r.requestedRbwHz / 1e3) ++ " kHz)",
   "  FFT size      : " ++ toString r.fftSize,
   "  Sweep entries : " ++ toString r.sweepEntries,
   "  Bins          : " ++ toString r.bins,
   "  Peak          : " ++ Decimal.fixedFloat32 2 r.peakPowerDb ++ " dB @ " ++
     Decimal.fixedFloat 4 (r.peakFreqHz / 1e6) ++ " MHz",
   "  Total power   : " ++ Decimal.fixedFloat32 2 r.totalPowerDb ++ " dB",
   "  Occupied BW   : " ++ Decimal.fixedFloat 3 (r.occupiedBwHz / 1e3) ++ " kHz (" ++
     Decimal.showFloat32 occupiedPowerPercent ++ "%)",
   rule]

/-- The text form of the report. -/
def text (r : Report) : String := "\n".intercalate r.lines

theorem length_lines (r : Report) : r.lines.length = 11 := rfl

end Report

end SweptSpectrum.Sweep
