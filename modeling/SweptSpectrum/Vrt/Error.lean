import SweptSpectrum.Vrt.Stream
import SweptSpectrum.Decimal.Text

/-!
What can go wrong on a VRT link, as causes.

Decoding faults (`frameIncomplete`, `unknownFrame`, `invalidTimestamp`) say the bytes are not a
packet; `formatViolation` says a value cannot be written or processed as asked; the rest come
from the channels and the command dialogue. `LinkError.message` holds all wording.
-/

namespace SweptSpectrum.Vrt

/-- Why bytes are not a frame of a known kind. -/
inductive FrameFault where
  | packetType (code : Nat)
  | streamId (value : Nat)
  | mismatch (stream : StreamId) (type : PacketType)
  deriving Repr, DecidableEq

/-- Why a timestamp is not valid. -/
inductive TimestampFault where
  | picoseconds (value : Nat)
  | integerMissing
  deriving Repr, DecidableEq

/-- A value that cannot be written, read or processed as asked. -/
inductive FormatFault where
  | unpairedGains
  | unalignedSamples (bytes : Nat)
  | iqLengthMismatch (i q : Nat)
  | oddI16Count (count : Nat)
  | streamCannotCarry (stream : StreamId) (samples : SampleType)
  | packetTooLong (words : Nat)
  | sizeBelowMinimum (size minimum : Nat)
  | fftTooSmall (size : Nat)
  | sampleCount (expected found : Nat)
  | emptySpectrum
  | channelRange (start stop bins : Nat)
  | occupiedPercentage (percent : Float32)
  deriving Repr

/-- Every fault of the link layer. -/
inductive LinkError where
  | frameIncomplete (expected received : Nat)
  | unknownFrame (fault : FrameFault)
  | invalidTimestamp (fault : TimestampFault)
  | formatViolation (fault : FormatFault)
  | noResponse (timeoutMs : Nat)
  | connectionDropped
  | malformedResponse (command response : String)
  | io (detail : String)
  deriving Repr

/-- A duration of whole milliseconds in the debugging notation of durations: `0ns`, `10ms`,
`1.5s`, `5s`. -/
def durationText (ms : Nat) : String :=
  if ms = 0 then "0ns"
  else if ms < 1000 then s!"{ms}ms"
  else
    let frac := ms % 1000
    if frac = 0 then s!"{ms / 1000}s"
    else
      let digits := Decimal.padDigits frac 3
      let trimmed := String.ofList (digits.toList.reverse.dropWhile (· == '0')).reverse
      s!"{ms / 1000}.{trimmed}s"

/-- The wording of a frame fault. -/
def FrameFault.message : FrameFault → String
  | .packetType code => s!"Unknown packet type: {code}"
  | .streamId value =>
    "Unknown stream id: 0x" ++ Decimal.zeros (8 - (Nat.toDigits 16 value).length) ++
      String.ofList (Nat.toDigits 16 value)
  | .mismatch stream type => s!"stream {stream.name} cannot be carried by packet type {type.code}"

/-- The wording of a timestamp fault. -/
def TimestampFault.message : TimestampFault → String
  | .picoseconds value => s!"picoseconds {value} out of range"
  | .integerMissing => "integer timestamp field not present"

/-- The wording of a format fault. -/
def FormatFault.message : FormatFault → String
  | .unpairedGains => "receiver context needs both IF and RF gain or neither"
  | .unalignedSamples bytes => s!"sample payload of {bytes} bytes is not word aligned"
  | .iqLengthMismatch i q => s!"I/Q length mismatch: {i} vs {q}"
  | .oddI16Count count => s!"I16 stream needs an even sample count, got {count}"
  | .streamCannotCarry stream samples => s!"stream {stream.name} cannot carry {samples.name} samples"
  | .packetTooLong words => s!"packet of {words} words exceeds VRT maximum"
  | .sizeBelowMinimum size minimum => s!"packet size {size} words is smaller than minimum {minimum}"
  | .fftTooSmall size => s!"FFT size {size} is too small"
  | .sampleCount expected found => s!"expected {expected} samples, got {found}"
  | .emptySpectrum => "empty spectrum"
  | .channelRange start stop bins => s!"invalid channel range {start}..{stop} for {bins} bins"
  | .occupiedPercentage percent =>
    "occupied percentage " ++ Decimal.showFloat32 percent ++ " is outside (0, 100]"

namespace LinkError

/-- The wording of a link error. -/
def message : LinkError → String
  | .frameIncomplete expected received =>
    s!"Frame incomplete: expected {expected} bytes, received {received}"
  | .unknownFrame fault => "Unknown frame: " ++ fault.message
  | .invalidTimestamp fault => "Invalid timestamp: " ++ fault.message
  | .formatViolation fault => "Format violation: " ++ fault.message
  | .noResponse ms => "No response within " ++ durationText ms
  | .connectionDropped => "Connection dropped"
  | .malformedResponse command response => s!"Malformed response to '{command}': '{response}'"
  | .io detail => "I/O error: " ++ detail

/-- The name of the error's kind. -/
def kind : LinkError → String
  | .frameIncomplete .. => "FrameIncomplete"
  | .unknownFrame _ => "UnknownFrame"
  | .invalidTimestamp _ => "InvalidTimestamp"
  | .formatViolation _ => "FormatViolation"
  | .noResponse _ => "NoResponse"
  | .connectionDropped => "ConnectionDropped"
  | .malformedResponse .. => "MalformedResponse"
  | .io _ => "Io"

/-- Whether the error says that received bytes are not a packet. -/
def isDecodeError : LinkError → Bool
  | .frameIncomplete .. | .unknownFrame _ | .invalidTimestamp _ => true
  | _ => false

end LinkError

end SweptSpectrum.Vrt
