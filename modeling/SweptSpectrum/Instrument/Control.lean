import SweptSpectrum.Instrument.Descriptor
import SweptSpectrum.Sweep.Plan

/-!
Controlling an instrument's sweep list over a command channel.

A command channel takes text commands, and answers queries with one line. The sweep-list
commands are plain SCPI texts; loading a plan resets the instrument, clears its list, sets one
iteration, the attenuation and the mode, and then writes one list entry per plan entry. The
instrument is not started.
-/

namespace SweptSpectrum.Instrument

open Vrt Sweep

/-- A channel that carries commands and queries to an instrument. -/
class CommandChannel (σ : Type) where
  /-- Sends a command that has no reply. -/
  send : String → σ → Except LinkError Unit × σ
  /-- Sends a query and returns its one-line reply. -/
  query : String → σ → Except LinkError String × σ

/-- A computation over a command channel of state `σ`. -/
abbrev Control (σ : Type) := ExceptT LinkError (StateM σ)

variable {σ : Type} [CommandChannel σ]

/-- Sends a command. -/
def send (cmd : String) : Control σ Unit := ExceptT.mk fun s => CommandChannel.send cmd s

/-- Sends a query. -/
def query (cmd : String) : Control σ String := ExceptT.mk fun s => CommandChannel.query cmd s

/-- The state of a sweep list. -/
inductive SweepStatus where
  | running
  | stopped
  deriving Repr, DecidableEq

/-- The name of a status, `Running` or `Stopped`. -/
def SweepStatus.name : SweepStatus → String
  | .running => "Running"
  | .stopped => "Stopped"

/-- Resets the instrument to its defaults. -/
def reset : Control σ Unit := send "*RST"

/-- Discards data queued on the data channel. -/
def flush : Control σ Unit := send "SYSTEM:FLUSH"

/-- Aborts the current capture. -/
def abort : Control σ Unit := send "SYSTEM:ABORT"

/-- Asks the instrument who it is. -/
def identify : Control σ String := query "*IDN?"

/-- Deletes every sweep list entry. -/
def clearAllEntries : Control σ Unit := send "SWEEP:ENTRY:DELETE ALL"

/-- Sets how often the list is run (0 for ever). -/
def setIteration (count : Nat) : Control σ Unit := send s!"SWEEP:LIST:ITER {count}"

/-- Starts editing a new entry. -/
def newEntry : Control σ Unit := send "SWEEP:ENTRY:NEW"

/-- Sets the range of centers of the entry being edited. -/
def setCenterRange (start stop : Nat) : Control σ Unit :=
  send s!"SWEEP:ENTRY:FREQ:CENT {start} Hz, {stop} Hz"

/-- Sets the center step of the entry being edited. -/
def setStep (step : Nat) : Control σ Unit := send s!"SWEEP:ENTRY:FREQ:STEP {step} Hz"

/-- Sets the samples per packet of the entry being edited. -/
def setSamplesPerPacket (spp : Nat) : Control σ Unit := send s!"SWEEP:ENTRY:SPPACKET {spp}"

/-- Sets the packets per block of the entry being edited. -/
def setPacketsPerBlock (ppb : Nat) : Control σ Unit := send s!"SWEEP:ENTRY:PPBLOCK {ppb}"

/-- Appends the entry being edited to the list. -/
def saveEntry : Control σ Unit := send "SWEEP:ENTRY:SAVE"

/-- Sets the mode of the entry being edited. -/
def setMode (mode : RfeMode) : Control σ Unit := send ("SWEEP:ENTRY:MODE " ++ mode.name)

/-- Sets the attenuation: a step attenuator on `-408` and `-308` models, a variable one on
the others. -/
def setAttenuation (d : Descriptor) (value : Nat) : Control σ Unit :=
  if d.hasStepAttenuator then send s!"SWEEP:ENTRY:ATT {value}"
  else send s!"SWEEP:ENTRY:ATT:VAR {value}"

/-- Starts the sweep. -/
def start : Control σ Unit := send "SWEEP:LIST:START"

/-- Stops the sweep. -/
def stop : Control σ Unit := send "SWEEP:LIST:STOP"

/-- The status query. -/
def statusQuery : String := "SWEEP:LIST:STATUS?"

/-- Reads a status reply, blanks and case ignored. -/
def readStatus (reply : String) : Except LinkError SweepStatus :=
  match Text.toUpperFull (Text.trim reply) with
  | "RUNNING" => .ok .running
  | "STOPPED" => .ok .stopped
  | _ => .error (.malformedResponse statusQuery reply)

/-- Asks whether the sweep runs. -/
def status : Control σ SweepStatus := do
  let reply ← query statusQuery
  readStatus reply

/-- Writes one plan entry as a list entry. -/
def pushEntry (e : PlanEntry) : Control σ Unit := do
  setCenterRange e.fcstart e.fcstop
  setStep e.fstep
  setSamplesPerPacket e.samplesPerPacket
  setPacketsPerBlock e.packetsPerBlock
  saveEntry

/-- Loads a plan into the instrument without starting it. -/
def loadPlan (p : SweepPlan) (attenuator : Nat) (d : Descriptor) : Control σ Unit := do
  reset
  flush
  abort
  clearAllEntries
  newEntry
  setIteration 1
  setAttenuation d attenuator
  setMode p.mode
  p.entries.forM pushEntry

/-- A channel that records what is sent and answers queries from a list of replies; with no
reply left a query times out at once. -/
structure Recorder where
  sent : Array String := #[]
  replies : List String := []

instance : CommandChannel Recorder where
  send cmd r := (.ok (), { r with sent := r.sent.push cmd })
  query cmd r :=
    let r := { r with sent := r.sent.push cmd }
    match r.replies with
    | [] => (.error (.noResponse 0), r)
    | reply :: rest => (.ok reply, { r with replies := rest })

theorem Recorder.send_records (cmd : String) (r : Recorder) :
    CommandChannel.send cmd r = (.ok (), { r with sent := r.sent.push cmd }) := rfl

end SweptSpectrum.Instrument
