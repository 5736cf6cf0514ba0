/-!
The streams of a VITA Radio Transport (VRT) link and the packet kinds that carry them.

An instrument sends six streams, each with a fixed 32-bit identifier: two context streams
(receiver and digitizer settings), one extension context stream (sweep markers) and three
IF data streams that differ in sample encoding. A stream is carried by exactly one packet
type: `StreamId.packetType`.
-/

namespace SweptSpectrum.Vrt

/-- The packet type field, the top nibble of a header's first word. -/
inductive PacketType where
  | ifData
  | context
  | extensionContext
  deriving Repr, DecidableEq, Inhabited

namespace PacketType

/-- The nibble that encodes the type. -/
def code : PacketType → Nat
  | .ifData => 1
  | .context => 4
  | .extensionContext => 5

/-- The type with a given nibble, if any. -/
def ofCode? : Nat → Option PacketType
  | 1 => some .ifData
  | 4 => some .context
  | 5 => some .extensionContext
  | _ => none

/-- The type's name. -/
def name : PacketType → String
  | .ifData => "IfData"
  | .context => "Context"
  | .extensionContext => "ExtensionContext"

theorem ofCode?_code (t : PacketType) : ofCode? t.code = some t := by
  cases t <;> rfl

end PacketType

/-- How IF samples are laid out in 32-bit words. -/
inductive SampleType where
  /-- a 16-bit I and a 16-bit Q sample per word -/
  | i16q16
  /-- two 16-bit real samples per word -/
  | i16
  /-- one 32-bit real sample per word -/
  | i32
  deriving Repr, DecidableEq, Inhabited

namespace SampleType

/-- The name of the encoding in capitals, `I16Q16`, `I16`, `I32`. -/
def name : SampleType → String
  | .i16q16 => "I16Q16"
  | .i16 => "I16"
  | .i32 => "I32"

/-- The name of the encoding in lowercase, `i16q16`, `i16`, `i32`. -/
def key : SampleType → String
  | .i16q16 => "i16q16"
  | .i16 => "i16"
  | .i32 => "i32"

/-- Samples per 32-bit word (an I/Q pair counts as one sample). -/
def perWord : SampleType → Nat
  | .i16 => 2
  | _ => 1

/-- The sample value that stands for full scale of the converter. -/
def fullScale : SampleType → Float32
  | .i16q16 => 8192.0
  | .i16 => 8192.0
  | .i32 => 8388608.0

end SampleType

/-- The six streams of a link. -/
inductive StreamId where
  | receiver
  | digitizer
  | i16q16
  | extension
  | i16
  | i32
  deriving Repr, DecidableEq, Inhabited

namespace StreamId

/-- Every stream, in identifier order. -/
def all : List StreamId := [.receiver, .digitizer, .i16q16, .extension, .i16, .i32]

/-- The position of the stream in identifier order, 0 to 5. -/
def index : StreamId → Nat
  | .receiver => 0
  | .digitizer => 1
  | .i16q16 => 2
  | .extension => 3
  | .i16 => 4
  | .i32 => 5

/-- The 32-bit identifier, `0x90000001` to `0x90000006`. -/
def value (s : StreamId) : Nat := 0x90000001 + s.index

/-- The stream with a given identifier, if any. -/
def ofValue? (v : Nat) : Option StreamId := all.find? (·.value == v)

/-- The stream's name. -/
def name : StreamId → String
  | .receiver => "receiver"
  | .digitizer => "digitizer"
  | .i16q16 => "i16q16"
  | .extension => "extension"
  | .i16 => "i16"
  | .i32 => "i32"

/-- The stream with a given name, if any. -/
def ofName? (s : String) : Option StreamId := all.find? (·.name == s)

/-- The sample encoding of a data stream; context streams carry none. -/
def sampleType? : StreamId → Option SampleType
  | .i16q16 => some .i16q16
  | .i16 => some .i16
  | .i32 => some .i32
  | _ => none

/-- The packet type that carries the stream. -/
def packetType : StreamId → PacketType
  | .receiver => .context
  | .digitizer => .context
  | .extension => .extensionContext
  | _ => .ifData

/-- The data stream of a sample encoding. -/
def ofSampleType : SampleType → StreamId
  | .i16q16 => .i16q16
  | .i16 => .i16
  | .i32 => .i32

theorem ofValue?_value (s : StreamId) : ofValue? s.value = some s := by
  cases s <;> rfl

theorem index_lt (s : StreamId) : s.index < 6 := by
  cases s <;> decide

end StreamId

end SweptSpectrum.Vrt
