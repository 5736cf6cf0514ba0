import SweptSpectrum.Instrument.Simulator
import SweptSpectrum.Sweep.Capture

/-!
A session with one instrument: its command channel, the reader of its data channel, what it
said it is, and the attenuation to load with each plan.

The command and data channels of a session share one state, the link, which the reader
holds; commands are run on the reader's link. A plan is checked against the model's tuning
limit before it is made. A capture loads the plan, forgets the packet counts of earlier
sweeps, starts the sweep and fills the spectrum buffer; the sweep is left running.
-/

namespace SweptSpectrum.Instrument

open Vrt Sweep

/-- A command channel that also keeps every command and query it carries. -/
structure Logged (σ : Type) where
  inner : σ
  log : Array String := #[]

instance {σ : Type} [CommandChannel σ] : CommandChannel (Logged σ) where
  send cmd l :=
    let (r, inner) := CommandChannel.send cmd l.inner
    (r, { inner, log := l.log.push cmd })
  query cmd l :=
    let (r, inner) := CommandChannel.query cmd l.inner
    (r, { inner, log := l.log.push cmd })

instance {σ : Type} [DataChannel σ] : DataChannel (Logged σ) where
  recv l n timeoutMs :=
    let (r, inner) := DataChannel.recv l.inner n timeoutMs
    (r, { l with inner })
  pending l := DataChannel.pending l.inner

/-- A session with an instrument over a link of state `σ`. -/
structure Device (σ : Type) where
  reader : Reader σ
  descriptor : Descriptor
  attenuator : Nat := 0

namespace Device

variable {σ : Type} [CommandChannel σ] [DataChannel σ]

/-- Identifies the instrument on a link and opens a session. -/
def connect (link : σ) (timeoutMs : Nat) : SweepResult (Device σ) :=
  match (identify.run).run link with
  | (.error e, _) => .error (.device e)
  | (.ok reply, link) => match Descriptor.parse reply with
    | .error e => .error (.device e)
    | .ok descriptor => .ok { reader := { channel := link, timeoutMs }, descriptor }

/-- The log line of a successful connection. -/
def connectedText (d : Descriptor) : String :=
  "Connected to " ++ d.manufacturer ++ " " ++ d.model ++ " (serial " ++ d.serial ++
    ", firmware " ++ d.firmware ++ ")"

/-- Runs commands on the session's link. -/
def control {α : Type} (d : Device σ) (m : Control σ α) : Except LinkError α × Device σ :=
  let (r, link) := (m.run).run d.reader.channel
  (r, { d with reader := { d.reader with channel := link } })

/-- The plan of a capture, refused when it reaches past the model's tuning limit. -/
def powerSpectrumAlloc (d : Device σ) (fstart fstop : Nat) (rbw : Double) (mode : RfeMode) :
    SweepResult SweepPlan :=
  if fstop > d.descriptor.maxTuneFreq then
    .error (.frequencyOutOfRange ("fstop " ++ toString fstop ++ " Hz above " ++ d.descriptor.model ++
      " limit " ++ toString d.descriptor.maxTuneFreq ++ " Hz"))
  else plan fstart fstop rbw mode

/-- Loads the plan, starts the sweep and captures it into the buffer, transforming with `fft`;
the buffer is returned as it is when loading or starting fails. Also returns the data packets
handled. -/
def capture (fft : Dsp.Fft) (d : Device σ) (p : SweepPlan) (buf : Spectrum) :
    SweepResult Unit × Device σ × Spectrum × Nat :=
  match d.control (loadPlan p d.attenuator d.descriptor) with
  | (.error e, d) => (.error (.device e), d, buf, 0)
  | (.ok (), d) =>
    let d := { d with reader := d.reader.resetSequence }
    match d.control start with
    | (.error e, d) => (.error (.device e), d, buf, 0)
    | (.ok (), d) =>
      let out := capturePowerSpectrum fft p d.reader
      (out.result, { d with reader := out.reader }, out.spectrum, out.received)

/-- Stops the sweep. -/
def stopSweep (d : Device σ) : SweepResult Unit × Device σ :=
  match d.control stop with
  | (.error e, d) => (.error (.device e), d)
  | (.ok (), d) => (.ok (), d)

/-- Asks whether the sweep runs. -/
def sweepStatus (d : Device σ) : SweepResult SweepStatus × Device σ :=
  match d.control status with
  | (.error e, d) => (.error (.device e), d)
  | (.ok st, d) => (.ok st, d)

end Device

theorem Device.powerSpectrumAlloc_over_limit {σ : Type} [CommandChannel σ] [DataChannel σ]
    (d : Device σ) (fstart fstop : Nat) (rbw : Double) (mode : RfeMode)
    (h : fstop > d.descriptor.maxTuneFreq) :
    ∃ e, d.powerSpectrumAlloc fstart fstop rbw mode = .error e := by
  simp [Device.powerSpectrumAlloc, h]

end SweptSpectrum.Instrument
