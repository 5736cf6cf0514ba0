import SweptSpectrum.Sweep.Plan
import SweptSpectrum.Text.Unsigned
import SweptSpectrum.Decimal.Read

/-!
What a session connects to, and the frequencies a user types.

A frequency is a decimal number with an optional unit `GHz`, `MHz`, `kHz` or `Hz`, in any
case. Without a unit it must be a plain unsigned integer of hertz; with one it may be any
floating-point literal, which is scaled and rounded to the nearest hertz (halves away from
zero). The units are tried longest first, since `hz` is a suffix of the others.
-/

namespace SweptSpectrum.Sweep

/-- `s` without the suffix `suffix`, if it ends with it. -/
def stripSuffix? (s suffix : String) : Option String :=
  if suffix.toList.isSuffixOf s.toList then
    some (String.ofList (s.toList.take (s.toList.length - suffix.toList.length)))
  else none

/-- The frequency units and their scale, in the order they are tried. -/
def frequencyUnits : List (String × Float) :=
  [("ghz", 1e9), ("mhz", 1e6), ("khz", 1e3), ("hz", 1.0)]

/-- The first unit that ends the (lowercase) text: the number before it, trimmed, and the
unit's scale. -/
def splitUnit (lower : String) : Option (String × Float) :=
  frequencyUnits.findSome? fun (unit, scale) =>
    (stripSuffix? lower unit).map fun v => (Text.trim v, scale)

/-- Reads a frequency in hertz. -/
def parseFrequency (input : String) : Except String Nat :=
  let s := Text.trim input
  match splitUnit (Text.toLowerFull s) with
  | none =>
    match Text.parseUnsigned maxU64 s with
    | .ok n => .ok n
    | .error e => .error ("Invalid frequency '" ++ s ++ "': " ++ e.message)
  | some (value, scale) =>
    match Decimal.parseFloatLiteral value with
    | .error e => .error ("Invalid frequency value '" ++ value ++ "': " ++ e.message)
    | .ok v =>
      let hz := v * scale
      if !hz.isFinite || hz < 0.0 || hz ≥ 18446744073709551616.0 then
        .error ("Frequency '" ++ s ++ "' is out of range")
      else .ok hz.round.toUInt64.toNat

/-- Where a session connects. -/
inductive DeviceTarget where
  /-- the built-in simulator -/
  | simulated
  /-- an instrument at a host name or address -/
  | host (name : String)
  deriving Repr, DecidableEq

namespace DeviceTarget

/-- How the target is shown: `sim`, or the host name. -/
def display : DeviceTarget → String
  | .simulated => "sim"
  | .host name => name

/-- Reads a target: `sim` or `simulated` in any case, else a host name without blanks. -/
def parse (input : String) : Except String DeviceTarget :=
  let s := Text.trim input
  let lower := Text.toLowerFull s
  if lower = "" then .error "Empty target. Use: sim or a host name/IP"
  else if lower = "sim" ∨ lower = "simulated" then .ok .simulated
  else if Text.hasBlank s then .error ("Invalid host: '" ++ s ++ "'")
  else .ok (.host s)

/-- Whether the target is the simulator. -/
def isSimulated : DeviceTarget → Bool
  | .simulated => true
  | .host _ => false

end DeviceTarget

/-- The default TCP endpoint number of the command channel. -/
def commandPort : Nat := 37001

/-- The default TCP endpoint number of the data channel. -/
def dataPort : Nat := 37000

/-- Everything a session needs to connect and sweep. -/
structure SessionConfig where
  target : DeviceTarget := .simulated
  commandPort : Nat := commandPort
  dataPort : Nat := dataPort
  /-- socket and packet read timeout, milliseconds -/
  timeoutMs : Nat := 5000
  /-- attenuation for sweep entries, dB -/
  attenuator : Nat := 0
  deriving Repr

theorem DeviceTarget.isSimulated_iff (t : DeviceTarget) : t.isSimulated = true ↔ t = .simulated := by
  cases t <;> simp [DeviceTarget.isSimulated]

end SweptSpectrum.Sweep
