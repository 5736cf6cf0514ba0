import SweptSpectrum.Cli.Arguments
import SweptSpectrum.Cli.Log
import SweptSpectrum.Instrument.Device
import SweptSpectrum.Sweep.Report
import SweptSpectrum.Sweep.Target
import SweptSpectrum.Backend.Fourier
import SweptSpectrum.Backend.Random
import SweptSpectrum.Backend.Similarity

/-!
One run of the `wsa-sweep` command, apart from the world: what it writes to each stream, its
exit status, and the report it still has to save.

A run reads its options, then the target, the band, the resolution and the mode, each refused
with its own message and status 1. It connects, plans the capture with the instrument's limits,
logs the plan, captures one sweep, stops the sweep, and logs the report. A command line that
cannot be read ends with status 2 and the reader's message; help and the version end with
status 0. Only the simulator can be reached: no network link is available to this program.

A run takes what the model leaves as parameters from its backends: the transform of its
analyzers, the noise generator of its simulator and the similarity behind its hints. The
command is built with `Backends.standard`.
-/

namespace SweptSpectrum.Cli

open Sweep Instrument Vrt

/-- What a run plugs into the parameters of the model: the transform of its analyzers, the noise
generator of its simulator by seed, and how alike two texts are, between 0 and 1. -/
structure Backends where
  fft : Dsp.Fft
  generator : UInt64 → Draws
  similarity : String → String → Float

/-- The backends the command is built with: a mixed-radix transform in double precision, ChaCha
with 12 rounds, and Jaro similarity. -/
def Backends.standard : Backends := ⟨Backend.fourierFft, Backend.chachaDraws, Backend.jaro⟩

/-- What a run writes, how it ends, and the report to save, with its path. -/
structure Outcome where
  exit : Nat := 0
  stdout : List String := []
  stderr : List String := []
  quiet : Bool := false
  save : Option (String × Report) := none

/-- A run that logs as it goes and may stop with an exit status. -/
abbrev RunM := ExceptT Nat (StateM (Array Record))

/-- Logs a record. -/
def logAt (level : Level) (message : String) : RunM Unit := modify (·.push ⟨level, message⟩)

/-- Logs an error and stops with status 1. -/
def fail {α : Type} (message : String) : RunM α := do
  logAt .error message
  throw 1

/-- The value of a step, or the step's error logged and status 1. -/
def need {α ε : Type} (r : Except ε α) (message : ε → String) : RunM α :=
  match r with
  | .ok a => pure a
  | .error e => fail (message e)

/-- The link to a target: the simulator in its default configuration. -/
def openLink (generator : UInt64 → Draws) (config : SessionConfig) : Except LinkError Simulator :=
  match config.target with
  | .simulated => .ok (Simulator.new generator {})
  | .host _ => .error (.io "network links are not available")

/-- The log line of the FFT size clamped to the instrument maximum. -/
def clampText (wanted : Nat) : String :=
  "FFT size " ++ toString wanted ++ " exceeds instrument maximum, clamped to " ++
    toString maxSamplesPerPacket

/-- The lines logged before a capture. -/
def planLines (target : DeviceTarget) (model : String) (p : SweepPlan) : List String :=
  let mhz := fun (hz : Nat) => Decimal.fixedFloat 3 (asFloat hz / 1e6)
  [Report.rule,
   "  Target        : " ++ target.display,
   "  Model         : " ++ model,
   "  Span          : " ++ mhz p.fstart ++ " .. " ++ mhz p.fstop ++ " MHz",
   "  RBW           : " ++ Decimal.fixedDouble 3 (p.rbw / 1000) ++ " kHz",
   "  FFT size      : " ++ toString p.samplesPerPacket,
   "  Packets       : " ++ toString p.packetTotal,
   Report.rule]

/-- Captures the spectrum the options ask for and reports it; returns the report to save. -/
def sweep (b : Backends) (o : Options) : RunM (Option (String × Report)) := do
  let target ← need (DeviceTarget.parse o.target) ("--target: " ++ ·)
  let fstart ← need (parseFrequency o.start) ("--start: " ++ ·)
  let fstop ← need (parseFrequency o.stop) ("--stop: " ++ ·)
  let rbwHz ← need (parseFrequency o.rbw) ("--rbw: " ++ ·)
  if rbwHz = 0 then fail "--rbw must be positive"
  let rbw := Double.ofNat rbwHz
  let mode ← need (RfeMode.parse o.mode) ("--mode: " ++ ·)
  let session : SessionConfig := { target, timeoutMs := o.timeoutMs, attenuator := o.attenuator }
  let connected := match openLink b.generator session with
    | .ok link => Device.connect link session.timeoutMs
    | .error e => .error (.device e)
  let d ← need connected fun e => "Failed to connect to " ++ target.display ++ ": " ++ e.message
  let d := { d with attenuator := session.attenuator }
  logAt .info (Device.connectedText d.descriptor)
  if fstop ≤ d.descriptor.maxTuneFreq then
    if let some wanted := clampedFftSize? fstart fstop rbw mode then logAt .warn (clampText wanted)
  let p ← need (d.powerSpectrumAlloc fstart fstop rbw mode) ("Planning failed: " ++ ·.message)
  for line in planLines target d.descriptor.model p do logAt .info line
  let (captured, d, buf, received) := d.capture b.fft p (poisonedSpectrum p.bins)
  if captured matches .ok () then
    logAt .info (captureSummary received (unfilledBins buf) p.bins)
  let (stopped, d) := d.stopSweep
  if let .error e := stopped then logAt .warn ("Failed to stop sweep: " ++ e.message)
  if let .error e := captured then fail ("Capture failed: " ++ e.message)
  let lost := d.reader.stats.packetsLost
  if lost > 0 then logAt .warn (toString lost ++ " packets lost in the data stream")
  let r ← need (Report.ofCapture p buf) ("Failed to build report: " ++ ·.message)
  logAt .info ("\n" ++ r.text)
  return o.output.map fun path => (path, r)

/-- A run of the command with the given backends and arguments. -/
def run (b : Backends) (args : List String) : Outcome :=
  match readArguments b.similarity args with
  | .error .help => { stdout := helpLines }
  | .error .version => { stdout := [versionLine] }
  | .error (.refuse e) => { exit := 2, stderr := e.lines }
  | .ok o =>
    let (result, records) := ((sweep b o).run).run #[]
    let stderr := renderLog o.quiet records.toList
    match result with
    | .ok save => { stderr, quiet := o.quiet, save }
    | .error code => { exit := code, stderr, quiet := o.quiet }

/-- The run once its report is saved, or has failed to be, for the reason given. -/
def Outcome.saved (o : Outcome) (written : Except String Unit) : Outcome :=
  match o.save with
  | none => o
  | some (path, _) =>
    match written with
    | .ok () =>
      { o with stderr := o.stderr ++ renderLog o.quiet [⟨.info, "Report written to " ++ quotePath path⟩] }
    | .error e =>
      { o with exit := 1,
               stderr := o.stderr ++ renderLog o.quiet
                 [⟨.error, "Failed to write " ++ quotePath path ++ ": " ++ (SweepError.io e).message⟩] }

theorem Outcome.saved_of_save_none (o : Outcome) (written : Except String Unit)
    (h : o.save = none) : o.saved written = o := by
  simp [Outcome.saved, h]

end SweptSpectrum.Cli
