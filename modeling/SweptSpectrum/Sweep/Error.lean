import SweptSpectrum.Vrt.Error
import SweptSpectrum.Decimal.Text

/-!
Errors of sweep planning, capture and instrument control.

`SweepError.device` wraps a link error; its kind is the link error's kind prefixed with
`Device.`. Planning errors are those a plan can fail with before anything is sent to an
instrument.
-/

namespace SweptSpectrum.Sweep

open Vrt

/-- Why a sweep operation failed. -/
inductive SweepError where
  /-- the mode has no sweep profile -/
  | unsupportedMode (mode : String)
  /-- the requested band lies outside the tuning range -/
  | frequencyOutOfRange (detail : String)
  /-- the resolution asks for fewer FFT points than the minimum -/
  | bandTooSmall (size minimum : Nat)
  /-- the resolution bandwidth is not a positive finite number -/
  | invalidRbw (rbw : Double)
  /-- the spectrum buffer could not be allocated -/
  | outOfMemory (bins : Nat)
  /-- a data packet came before the context it needs -/
  | missingContext (what : String)
  /-- a data packet does not hold the planned number of samples -/
  | sampleCountMismatch (expected found : Nat)
  /-- a sweep step would be written outside the spectrum buffer -/
  | spectrumOutOfBounds (offset : Int) (bins : Nat)
  /-- the session configuration is unusable -/
  | config (detail : String)
  /-- the link to the instrument failed -/
  | device (e : LinkError)
  /-- an input/output operation failed -/
  | io (detail : String)
  deriving Repr, Inhabited

namespace SweepError

/-- The text of the error. -/
def message : SweepError → String
  | .unsupportedMode mode => "Unsupported RFE mode: " ++ mode
  | .frequencyOutOfRange detail => "Frequency out of range: " ++ detail
  | .bandTooSmall size minimum => s!"Band too small: FFT size {size} below minimum {minimum}"
  | .invalidRbw rbw => "Invalid resolution bandwidth: " ++ Decimal.showDouble rbw ++ " Hz"
  | .outOfMemory bins => s!"Out of memory: cannot allocate {bins} spectrum bins"
  | .missingContext what => "Missing context: " ++ what
  | .sampleCountMismatch expected found =>
    s!"Sample count mismatch: expected {expected}, found {found}"
  | .spectrumOutOfBounds offset bins => s!"Spectrum offset {offset} out of bounds for {bins} bins"
  | .config detail => "Config error: " ++ detail
  | .device e => "Device error: " ++ e.message
  | .io detail => "I/O error: " ++ detail

/-- The name of the error's variant. -/
def kind : SweepError → String
  | .unsupportedMode _ => "UnsupportedMode"
  | .frequencyOutOfRange _ => "FrequencyOutOfRange"
  | .bandTooSmall _ _ => "BandTooSmall"
  | .invalidRbw _ => "InvalidRbw"
  | .outOfMemory _ => "OutOfMemory"
  | .missingContext _ => "MissingContext"
  | .sampleCountMismatch _ _ => "SampleCountMismatch"
  | .spectrumOutOfBounds _ _ => "SpectrumOutOfBounds"
  | .config _ => "Config"
  | .device e => "Device." ++ e.kind
  | .io _ => "Io"

/-- Whether planning failed: no partial plan exists. -/
def isPlanningError : SweepError → Bool
  | .unsupportedMode _ | .frequencyOutOfRange _ | .bandTooSmall _ _ | .invalidRbw _
  | .outOfMemory _ => true
  | _ => false

/-- Whether the error is a failure to decode the packet stream. -/
def isDecodeError : SweepError → Bool
  | .device e => e.isDecodeError
  | _ => false

theorem isDecodeError_of_planning (e : SweepError) (h : e.isPlanningError = true) :
    e.isDecodeError = false := by
  cases e <;> simp_all [isPlanningError, isDecodeError]

end SweepError

/-- A sweep computation that may fail. -/
abbrev SweepResult (α : Type) := Except SweepError α

/-- A link failure seen as a sweep failure. -/
def liftLink {α : Type} : Except LinkError α → SweepResult α
  | .ok a => .ok a
  | .error e => .error (.device e)

end SweptSpectrum.Sweep
