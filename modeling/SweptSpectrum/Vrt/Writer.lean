import SweptSpectrum.Vrt.Packet

/-!
A packet writer that numbers packets per stream.

Each stream has its own four-bit packet counter, starting at zero and advanced after every
packet written to that stream. The counter of a stream can also be skipped ahead, which is
how a gap in the numbering (a lost packet) is produced. A packet that fails to encode is not
written and does not advance any counter.
-/

namespace SweptSpectrum.Vrt

open Wire

/-- The state of a packet writer. -/
structure Writer where
  /-- the bytes written so far, most recent chunk first -/
  chunks : List Bytes := []
  /-- the next packet count of each stream, by stream index -/
  nextCount : Array Nat := Array.replicate StreamId.all.length 0
  packetsWritten : Nat := 0
  bytesWritten : Nat := 0

namespace Writer

/-- Everything written, in order. -/
def bytes (w : Writer) : Bytes := w.chunks.reverse.flatten

/-- The packet count the next packet of a stream gets. -/
def countOf (w : Writer) (id : StreamId) : Nat := w.nextCount.getD id.index 0

/-- Sets the next packet count of a stream. -/
def setCount (w : Writer) (id : StreamId) (c : Nat) : Writer :=
  { w with nextCount := w.nextCount.setIfInBounds id.index c }

/-- The packet a stream's next write produces: the stream's own type and the next count. -/
def packetFor (w : Writer) (id : StreamId) (ts : Timestamp) (body : Body) : Packet :=
  ⟨{ packetType := id.packetType, packetCount := (w.countOf id).toUInt8, packetSize := 0,
     streamId := id, hasTrailer := false, timestamp := ts }, body⟩

/-- Encodes the next packet of a stream and counts it, without keeping its bytes. -/
def encodePacket (w : Writer) (id : StreamId) (ts : Timestamp) (body : Body) :
    Except LinkError (Bytes × Writer) := do
  let bs ← (w.packetFor id ts body).encode
  let w := w.setCount id ((w.countOf id + 1) % 16)
  return (bs, { w with packetsWritten := w.packetsWritten + 1,
                       bytesWritten := w.bytesWritten + bs.length })

/-- Encodes and writes one packet; returns its size in bytes. -/
def writePacket (w : Writer) (id : StreamId) (ts : Timestamp) (body : Body) :
    Except LinkError (Nat × Writer) := do
  let (bs, w) ← w.encodePacket id ts body
  return (bs.length, { w with chunks := bs :: w.chunks })

/-- Skips `n` values of a stream's counter, as if `n` packets had been lost. -/
def skipCount (w : Writer) (id : StreamId) (n : Nat) : Writer :=
  w.setCount id ((w.countOf id + n) % 16)

/-- Appends bytes that are not counted as a packet. -/
def writeRaw (w : Writer) (bs : Bytes) : Writer := { w with chunks := bs :: w.chunks }

end Writer

theorem Writer.bytes_writeRaw (w : Writer) (bs : Bytes) : (w.writeRaw bs).bytes = w.bytes ++ bs := by
  simp [Writer.writeRaw, Writer.bytes]

end SweptSpectrum.Vrt
