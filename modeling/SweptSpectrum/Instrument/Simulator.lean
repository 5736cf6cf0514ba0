import SweptSpectrum.Instrument.Control
import SweptSpectrum.Sweep.Target
import SweptSpectrum.Dsp.Window
import SweptSpectrum.Vrt.Writer
import SweptSpectrum.Vrt.Reader

/-!
A simulated instrument.

It understands the sweep-list commands and, on `SWEEP:LIST:START`, emits the packet stream a
real instrument would: an extension context with the sweep number, then for every iteration,
entry and tuning a receiver context with the tuned frequency, a digitizer context with the
bandwidth and reference level, and the entry's data packets. Each packet is one chunk of its
data channel.

A data packet holds a cosine tone, when the tone falls into the usable band of the tuning,
plus uniform noise, rounded and saturated to 16-bit samples. Time advances by one sample
period per sample sent. The noise comes from a pseudo-random generator seeded from the
configuration; the generator is a parameter of the simulator, seen through its draws (`Draws`),
and the simulator counts the draws it has taken.

The data channel hands out the queued chunks in order. With nothing queued a read times out,
unless the instrument is gone, in which case the channel is closed. `SYSTEM:FLUSH` discards
the queued chunks but not the rest of a chunk already being read.
-/

namespace SweptSpectrum.Instrument

open Vrt Sweep Dsp Wire

/-- The simulator's clock starts at this many seconds of UTC. -/
def epochSeconds : Nat := 1700000000

/-- The sample period at 125 MS/s, picoseconds. -/
def samplePeriodPicos : Nat := 8000

/-- A sine wave at the simulator's input. -/
structure Tone where
  frequencyHz : Float
  /-- amplitude in converter counts -/
  amplitude : Float32

/-- How a simulator behaves. -/
structure SimConfig where
  model : String := "WSA5000-427"
  serial : String := "SIM-0001"
  firmware : String := "4.5.5"
  tone : Option Tone := some ⟨2447500000.0, 4000.0⟩
  /-- amplitude of the uniform noise, counts -/
  noiseAmplitude : Float32 := 8.0
  /-- reference level in the digitizer context, dB -/
  referenceLevel : Double := -10
  /-- whether the data trailers carry spectral inversion -/
  spectralInversion : Bool := false
  seed : UInt64 := 0x5eed

/-- A seeded pseudo-random generator seen through its draws: `draws k low high` is draw number
`k`, uniform on `[low, high]`. Each draw moves the generator on by one, whatever its range. -/
abbrev Draws := Nat → Float32 → Float32 → Float32

/-- A sweep list entry as the simulator stores it. -/
structure SimEntry where
  fcstart : Nat := 0
  fcstop : Nat := 0
  fstep : Nat := 0
  spp : Nat := 0
  ppb : Nat := 0
  deriving Repr, DecidableEq

/-- The simulator and its data channel. -/
structure Simulator where
  config : SimConfig
  writer : Writer := {}
  /-- the draws of the noise generator -/
  noise : Draws
  /-- the number of draws taken -/
  drawn : Nat := 0
  entries : Array SimEntry := #[]
  editing : SimEntry := {}
  iterations : Nat := 1
  mode : Option RfeMode := none
  attenuation : Option Nat := none
  running : Bool := false
  sweepId : Nat := 0
  clockPicos : Nat := 0
  /-- every command and query received, trimmed -/
  history : Array String := #[]
  /-- chunks sent on the data channel and not yet taken -/
  queue : Array Bytes := #[]
  /-- the index of the next chunk to take -/
  head : Nat := 0
  /-- the rest of the chunk being read -/
  pending : Bytes := []
  /-- whether the instrument is gone; its data channel closes once empty -/
  dropped : Bool := false

/-- A computation of the simulator that may fail. -/
abbrev SimM := ExceptT LinkError (StateM Simulator)

namespace Simulator

/-- A fresh simulator, its noise generator seeded from the configuration. -/
def new (generator : UInt64 → Draws) (config : SimConfig) : Simulator :=
  { config, noise := generator config.seed }

/-- The number of entries saved. -/
def entryCount (s : Simulator) : Nat := s.entries.size

/-- The number of packets sent. -/
def packetsSent (s : Simulator) : Nat := s.writer.packetsWritten

/-- The timestamp of the simulator's clock. -/
def timestamp (s : Simulator) : Timestamp :=
  ⟨((epochSeconds + s.clockPicos / picosPerSecond) % 2 ^ 32).toUInt32,
   (s.clockPicos % picosPerSecond).toUInt64⟩

/-- Sends one packet on the data channel. -/
def emit (id : StreamId) (ts : Timestamp) (body : Body) : SimM Unit := do
  match (← get).writer.encodePacket id ts body with
  | .ok (bs, w) => modify fun s => { s with writer := w, queue := s.queue.push bs }
  | .error e => throw e

/-- The bin of an `n`-point spectrum where a tone `off` hertz from the tuned frequency lands,
mirrored when the signal path inverts the spectrum. -/
def toneBin (p : Profile) (inverted : Bool) (off rbw : Float) (n : Nat) : Nat :=
  if inverted then (n - 1) - ((asFloat (p.fullBw - p.passbandCenter) + off) / rbw).round.toUInt64.toNat
  else ((asFloat p.passbandCenter + off) / rbw).round.toUInt64.toNat

/-- The tone's contribution to `n` samples at tuned frequency `fc`, zero outside the usable band. -/
def toneSamples (c : SimConfig) (p : Profile) (fc n : Nat) : Array Float32 :=
  let zero := Array.replicate n (0.0 : Float32)
  let rbw := asFloat p.fullBw / asFloat n
  let half := asFloat p.usableBw / 2.0
  match c.tone with
  | none => zero
  | some t =>
    let off := t.frequencyHz - asFloat fc
    if -half ≤ off && off < half && n > 0 then
      let bin := natToFloat32 (toneBin p c.spectralInversion off rbw n)
      zero.mapIdx fun i v =>
        v + t.amplitude * (2.0 * pi32 * bin * natToFloat32 i / natToFloat32 n).cos
    else zero

/-- Adds draws `k`, `k + 1`, … uniform on `[-amplitude, amplitude]` to the values, in order. -/
def addNoise (noise : Draws) (amplitude : Float32) (k : Nat) (values : List Float32) :
    List Float32 :=
  values.mapIdx fun i v => v + noise (k + i) (-amplitude) amplitude

/-- The samples of one data packet. -/
def samples (p : Profile) (fc n : Nat) : SimM (List Int16) := do
  let c := (← get).config
  let values := (toneSamples c p fc n).toList
  let values ← if c.noiseAmplitude > 0.0 then
      modifyGet fun s =>
        (addNoise s.noise c.noiseAmplitude s.drawn values,
         { s with drawn := s.drawn + values.length })
    else pure values
  return values.map fun v => v.round.toInt16

/-- Emits the packets of `count` tunings of an entry, from tuning `step` on. -/
def emitTunings (p : Profile) (e : SimEntry) : Nat → Nat → SimM Unit
  | 0, _ => pure ()
  | count + 1, step => do
    let fc := (e.fcstart + step * e.fstep) % 2 ^ 64
    let ts := (← get).timestamp
    emit .receiver ts (.receiver { frequency := some (Double.ofNat fc) })
    let c := (← get).config
    emit .digitizer ts (.digitizer { bandwidth := some (Double.ofNat p.fullBw),
                                     referenceLevel := some c.referenceLevel })
    for _ in List.range (max e.ppb 1) do
      let values ← samples p fc e.spp
      let trailer : Trailer := { Trailer.standard with spectralInversion := c.spectralInversion }
      let body := Body.ifData { samples := .real16 values, trailer := some trailer }
      emit .i16 (← get).timestamp body
      modify fun s => { s with clockPicos := (s.clockPicos + e.spp * samplePeriodPicos) % 2 ^ 64 }
    emitTunings p e count (step + 1)

/-- The number of tunings of an entry. -/
def SimEntry.tunings (e : SimEntry) : Nat :=
  if e.fstep = 0 ∨ e.fcstop ≤ e.fcstart then 1 else (e.fcstop - e.fcstart) / e.fstep + 1

/-- Starts the sweep: the marker packet, then every entry of every iteration. -/
def startSweep : SimM Unit := do
  let s ← get
  let some mode := s.mode
    | throw (.malformedResponse "SWEEP:LIST:START" "no mode set")
  let p ← match Profile.forMode mode with
    | .ok p => pure p
    | .error e => throw (.malformedResponse "SWEEP:LIST:START" e.message)
  let sweepId := (s.sweepId + 1) % 2 ^ 32
  set { s with running := true, sweepId }
  emit .extension (← get).timestamp (.extension { sweepStartId := some sweepId.toUInt32 })
  let entries := (← get).entries
  for _ in List.range (max (← get).iterations 1) do
    for e in entries do
      emitTunings p e (SimEntry.tunings e) 0

/-- The error for a command the simulator does not know. -/
def undefinedHeader (cmd : String) : LinkError := .malformedResponse cmd "-113,\"Undefined header\""

/-- Reads an unsigned argument at most `bound`. -/
def parseArg (cmd arg : String) (bound : Nat) : SimM Nat :=
  match Text.parseUnsigned bound (Text.trim arg) with
  | .ok n => pure n
  | .error _ => throw (.malformedResponse cmd ("bad argument '" ++ arg ++ "'"))

/-- Reads a frequency argument in hertz, with an optional `Hz` or `HZ` unit. -/
def parseHz (cmd arg : String) : SimM Nat :=
  let a := Text.trim arg
  parseArg cmd (((stripSuffix? a "Hz").orElse fun _ => stripSuffix? a "HZ").getD a) maxU64

/-- The command word and its trimmed argument, split at the first space. -/
def splitCommand (cmd : String) : String × String :=
  match cmd.splitOn " " with
  | head :: rest@(_ :: _) => (head, Text.trim (" ".intercalate rest))
  | _ => (cmd, "")

/-- Carries out a command. -/
def execute (cmd : String) : SimM Unit := do
  let (head, arg) := splitCommand cmd
  let u32 := Text.maxUnsigned 32
  match Text.toUpperFull head with
  | "*RST" => modify fun s => { s with entries := #[], editing := {}, iterations := 1, mode := none,
                                       running := false }
  | "SYSTEM:FLUSH" => modify fun s => { s with queue := #[], head := 0 }
  | "SYSTEM:ABORT" | "SWEEP:LIST:STOP" => modify fun s => { s with running := false }
  | "SWEEP:ENTRY:DELETE" =>
    if Text.eqIgnoreAsciiCase arg "ALL" then modify fun s => { s with entries := #[] }
    else throw (undefinedHeader cmd)
  | "SWEEP:ENTRY:NEW" => modify fun s => { s with editing := {} }
  | "SWEEP:ENTRY:SAVE" => modify fun s => { s with entries := s.entries.push s.editing }
  | "SWEEP:LIST:ITER" => do
    let n ← parseArg cmd arg u32
    modify fun s => { s with iterations := n }
  | "SWEEP:ENTRY:ATT" | "SWEEP:ENTRY:ATT:VAR" => do
    let n ← parseArg cmd arg u32
    modify fun s => { s with attenuation := some n }
  | "SWEEP:ENTRY:MODE" =>
    match RfeMode.parse arg with
    | .ok m => modify fun s => { s with mode := some m }
    | .error e => throw (.malformedResponse cmd e)
  | "SWEEP:ENTRY:FREQ:CENT" =>
    match arg.splitOn "," with
    | start :: rest@(_ :: _) => do
      let a ← parseHz cmd start
      modify fun s => { s with editing := { s.editing with fcstart := a } }
      let b ← parseHz cmd (",".intercalate rest)
      modify fun s => { s with editing := { s.editing with fcstop := b } }
    | _ => throw (.malformedResponse cmd "expected two frequencies")
  | "SWEEP:ENTRY:FREQ:STEP" => do
    let n ← parseHz cmd arg
    modify fun s => { s with editing := { s.editing with fstep := n } }
  | "SWEEP:ENTRY:SPPACKET" => do
    let n ← parseArg cmd arg maxU64
    modify fun s => { s with editing := { s.editing with spp := n } }
  | "SWEEP:ENTRY:PPBLOCK" => do
    let n ← parseArg cmd arg u32
    modify fun s => { s with editing := { s.editing with ppb := n } }
  | "SWEEP:LIST:START" => startSweep
  | _ => throw (undefinedHeader cmd)

/-- Answers a query. -/
def answer (cmd : String) : SimM String := do
  let s ← get
  match Text.toUpperFull cmd with
  | "*IDN?" => pure ("ThinkRF," ++ s.config.model ++ "," ++ s.config.serial ++ "," ++ s.config.firmware)
  | "SWEEP:LIST:STATUS?" => pure (if s.running then "RUNNING" else "STOPPED")
  | "SWEEP:ENTRY:COUNT?" => pure (toString s.entries.size)
  | _ => throw (undefinedHeader cmd)

/-- Records a command in the history. -/
def record (cmd : String) : SimM Unit := modify fun s => { s with history := s.history.push cmd }

/-- Takes up to `n` bytes of the data channel into `acc`, moving to the next chunk when the
current one is used up. `fuel` bounds the steps: each takes bytes or a chunk. -/
def takeBytes (n : Nat) (timeoutMs : Nat) : Nat → Bytes → Simulator → Except LinkError Bytes × Simulator
  | 0, acc, s => (.ok acc, s)
  | fuel + 1, acc, s =>
    if acc.length ≥ n then (.ok acc, s)
    else match s.pending with
      | _ :: _ =>
        let k := n - acc.length
        takeBytes n timeoutMs fuel (acc ++ s.pending.take k) { s with pending := s.pending.drop k }
      | [] =>
        if s.head < s.queue.size then
          takeBytes n timeoutMs fuel acc
            { s with pending := s.queue.getD s.head [], head := s.head + 1 }
        else if acc.isEmpty then
          (.error (if s.dropped then .connectionDropped else .noResponse timeoutMs), s)
        else (.ok acc, s)

/-- The bytes the data channel can still hand out. -/
def pendingBytes (s : Simulator) : Nat :=
  s.pending.length + ((s.queue.toList.drop s.head).map List.length).sum

end Simulator

/-- Runs a simulator computation on a state. -/
def runSim {α : Type} (m : SimM α) (s : Simulator) : Except LinkError α × Simulator := (m.run).run s

instance : CommandChannel Simulator where
  send cmd s :=
    let cmd := Text.trim cmd
    runSim (do Simulator.record cmd; Simulator.execute cmd) s
  query cmd s :=
    let cmd := Text.trim cmd
    runSim (do Simulator.record cmd; Simulator.answer cmd) s

instance : DataChannel Simulator where
  recv s n timeoutMs := Simulator.takeBytes n timeoutMs (n + s.queue.size - s.head + 2) [] s
  pending s := s.pendingBytes

theorem Simulator.splitCommand_single (c : String) (h : c.splitOn " " = [c]) :
    Simulator.splitCommand c = (c, "") := by
  simp [Simulator.splitCommand, h]

end SweptSpectrum.Instrument
