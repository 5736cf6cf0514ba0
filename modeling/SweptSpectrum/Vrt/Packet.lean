import SweptSpectrum.Vrt.Header
import SweptSpectrum.Vrt.Trailer
import SweptSpectrum.Vrt.Samples
import SweptSpectrum.Vrt.Context

/-!
Whole packets: a header and a body.

`Packet.encode` takes the packet type from the stream and the size and trailer bit from the
body, so only the stream, count and timestamp of the given header matter; a data body must
use its stream's sample encoding. `Packet.decode` reads one packet from the front of a buffer
and reports how many bytes it used; `decodeBody` reads the payload that follows a header,
choosing the body by the header's stream.
-/

namespace SweptSpectrum.Vrt

open Wire

/-- The body of a data packet: samples and an optional trailer. -/
structure IfData where
  samples : Samples
  trailer : Option Trailer := none
  deriving Repr, DecidableEq

/-- Whether the data is spectrally inverted, by its trailer; without one it is not. -/
def IfData.spectralInversion (d : IfData) : Bool :=
  match d.trailer with
  | some t => t.spectralInversion
  | none => false

/-- The body of a packet. -/
inductive Body where
  | receiver (c : ReceiverContext)
  | digitizer (c : DigitizerContext)
  | extension (c : ExtensionContext)
  | ifData (d : IfData)
  deriving Repr, BEq

/-- The name of a body's kind. -/
def Body.kind : Body → String
  | .receiver _ => "receiver"
  | .digitizer _ => "digitizer"
  | .extension _ => "extension"
  | .ifData _ => "if_data"

/-- Whether a body carries samples. -/
def Body.isData : Body → Bool
  | .ifData _ => true
  | _ => false

/-- A packet. -/
structure Packet where
  header : Header
  body : Body
  deriving Repr

/-- Decodes the payload of a data packet: the payload words as samples, then the trailer word
if the header announces one. -/
def decodeIfData (h : Header) (t : SampleType) (payload : Bytes) : Except LinkError Body := do
  let dataLen := h.payloadWords * 4
  let need := dataLen + (if h.hasTrailer then 4 else 0)
  if payload.length < need then throw (.frameIncomplete need payload.length)
  let samples ← decodeSamples (payload.take dataLen) t
  let trailer := if h.hasTrailer then some (Trailer.ofWord (beValue ((payload.drop dataLen).take 4)))
    else none
  return .ifData { samples, trailer }

/-- Decodes the payload after a header, by the header's stream. -/
def decodeBody (h : Header) (payload : Bytes) : Except LinkError Body :=
  match h.streamId with
  | .receiver => Body.receiver <$> ReceiverContext.decoder.run' payload
  | .digitizer => Body.digitizer <$> DigitizerContext.decoder.run' payload
  | .extension => Body.extension <$> ExtensionContext.decoder.run' payload
  | .i16q16 => decodeIfData h .i16q16 payload
  | .i16 => decodeIfData h .i16 payload
  | .i32 => decodeIfData h .i32 payload

/-- The largest size field, in words. -/
def maxPacketWords : Nat := 0xffff

/-- The payload bytes of a body and whether a trailer ends them; a data body must match its
stream's sample encoding. -/
def encodeBody (stream : StreamId) : Body → Except LinkError (Bytes × Bool)
  | .receiver c => return (← c.encode, false)
  | .digitizer c => return (← c.encode, false)
  | .extension c => return (← c.encode, false)
  | .ifData d => do
    if stream.sampleType? ≠ some d.samples.sampleType then
      throw (.formatViolation (.streamCannotCarry stream d.samples.sampleType))
    let bytes ← encodeSamples d.samples
    match d.trailer with
    | some t => return (bytes ++ beBytes 4 t.toWord, true)
    | none => return (bytes, false)

namespace Packet

/-- The bytes of a packet. The packet type comes from the stream, the size and the trailer bit
from the body. -/
def encode (p : Packet) : Except LinkError Bytes := do
  let (body, hasTrailer) ← encodeBody p.header.streamId p.body
  let words := Header.words + body.length / 4
  if words > maxPacketWords then throw (.formatViolation (.packetTooLong words))
  let header := { p.header with
    packetType := p.header.streamId.packetType, packetSize := words.toUInt16, hasTrailer }
  return (← header.encode) ++ body

/-- Decodes the packet at the front of a buffer, with the number of bytes it takes. -/
def decode (buf : Bytes) : Except LinkError (Packet × Nat) := do
  if buf.length < Header.size then throw (.frameIncomplete Header.size buf.length)
  let header ← Header.decode (buf.take Header.size)
  let total := header.packetSize.toNat * 4
  if buf.length < total then throw (.frameIncomplete total buf.length)
  let body ← decodeBody header ((buf.take total).drop Header.size)
  return ({ header, body }, total)

end Packet

theorem IfData.spectralInversion_none (s : Samples) :
    IfData.spectralInversion { samples := s } = false := rfl

end SweptSpectrum.Vrt
