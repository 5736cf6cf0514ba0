import SweptSpectrum.Vrt.Cursor

/-!
The five-word packet header.

```
word 0   type[31:28] trailer[26] TSI[23:22] TSF[21:20] count[19:16] size[15:0]
word 1   stream identifier
word 2   integer seconds (UTC)
word 3-4 picoseconds within the second
```

`Header.encode` always writes a UTC integer timestamp with a picosecond fraction and keeps the
low four bits of the count. `Header.decode` checks, in this order: the first two words are
there, the type is known, the stream is known, the stream belongs to the type, an integer
timestamp is present, the timestamp words are there, the picoseconds (read only when the
fraction field says picoseconds) are below a second, and the size covers the header, the
trailer of a data packet and the indicator word of a context packet.
-/

namespace SweptSpectrum.Vrt

open Wire

/-- A packet time: UTC seconds and picoseconds within the second. -/
structure Timestamp where
  seconds : UInt32 := 0
  picoseconds : UInt64 := 0
  deriving Repr, DecidableEq, Inhabited

/-- Picoseconds in a second. -/
def picosPerSecond : Nat := 1000000000000

/-- The timestamp in seconds as a `Float`: the seconds plus the picoseconds over `10^12`. -/
def Timestamp.toSeconds (t : Timestamp) : Float :=
  t.seconds.toNat.toFloat + t.picoseconds.toFloat / 1000000000000.0

/-- The header of a packet. -/
structure Header where
  packetType : PacketType
  packetCount : UInt8 := 0
  packetSize : UInt16 := 0
  streamId : StreamId
  hasTrailer : Bool := false
  timestamp : Timestamp := {}
  deriving Repr, DecidableEq

namespace Header

/-- Words in a header. -/
def words : Nat := 5

/-- Bytes in a header. -/
def size : Nat := 4 * words

/-- Payload words between header and trailer, by the size field (zero if it is too small). -/
def payloadWords (h : Header) : Nat :=
  h.packetSize.toNat - words - (if h.hasTrailer then 1 else 0)

/-- Samples in the payload of a data packet; zero for a context packet. -/
def samplesPerPacket (h : Header) : Nat :=
  match h.streamId.sampleType? with
  | some t => h.payloadWords * t.perWord
  | none => 0

/-- The smallest size, in words, of a packet of a type, with or without a trailer. -/
def minimumWords (type : PacketType) (hasTrailer : Bool) : Nat :=
  words + (if hasTrailer then 1 else 0) + (if type = .ifData then 0 else 1)

/-- Bit 26 of word 0: a trailer follows the payload. -/
def trailerBit : Nat := 26
/-- Bit 22 of word 0: the integer timestamp is UTC (TSI = 1). -/
def utcBit : Nat := 22
/-- Bit 21 of word 0: the fractional timestamp counts picoseconds (TSF = 2). -/
def picosBit : Nat := 21

/-- The first word of an encoded header. -/
def firstWord (h : Header) : Nat :=
  h.packetType.code * 2 ^ 28 + (if h.hasTrailer then 2 ^ trailerBit else 0) + 2 ^ utcBit +
    2 ^ picosBit + (h.packetCount.toNat % 16) * 2 ^ 16 + h.packetSize.toNat

/-- The 20 bytes of a header; a fraction of a second or more in the picoseconds is refused. -/
def encode (h : Header) : Except LinkError Bytes :=
  if h.timestamp.picoseconds.toNat ≥ picosPerSecond then
    .error (.invalidTimestamp (.picoseconds h.timestamp.picoseconds.toNat))
  else
    .ok (beBytes 4 h.firstWord ++ beBytes 4 h.streamId.value ++
      beBytes 4 h.timestamp.seconds.toNat ++ beBytes 8 h.timestamp.picoseconds.toNat)

/-- Reads a header from the front of a buffer. -/
def decoder : Decoder Header := do
  let word0 ← readWord 4
  let raw ← readWord 4
  let code := word0 / 2 ^ 28
  let some type := PacketType.ofCode? code
    | throw (.unknownFrame (.packetType code))
  let some stream := StreamId.ofValue? raw
    | throw (.unknownFrame (.streamId raw))
  if stream.packetType ≠ type then
    throw (.unknownFrame (.mismatch stream type))
  if !(word0.testBit 22 || word0.testBit 23) then
    throw (.invalidTimestamp .integerMissing)
  let seconds ← readWord 4
  let rawPicos ← readWord 8
  let picos := if word0.testBit picosBit then rawPicos else 0
  if picos ≥ picosPerSecond then
    throw (.invalidTimestamp (.picoseconds picos))
  let hasTrailer := type = .ifData && word0.testBit trailerBit
  let size := word0 % 2 ^ 16
  let minimum := minimumWords type hasTrailer
  if size < minimum then
    throw (.formatViolation (.sizeBelowMinimum size minimum))
  return {
    packetType := type
    packetCount := (word0 / 2 ^ 16 % 16).toUInt8
    packetSize := size.toUInt16
    streamId := stream
    hasTrailer
    timestamp := ⟨seconds.toUInt32, picos.toUInt64⟩ }

/-- Decodes a header from the start of a buffer; bytes past the twentieth are not read. -/
def decode (buf : Bytes) : Except LinkError Header := decoder.run' buf

end Header

theorem Header.length_encode {h : Header} {bs : Bytes} (e : h.encode = .ok bs) :
    bs.length = Header.size := by
  unfold Header.encode at e
  split at e
  · cases e
  · cases e
    simp [length_beBytes, Header.size, Header.words]

end SweptSpectrum.Vrt
