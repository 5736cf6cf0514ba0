import SweptSpectrum.Vrt.Packet

/-!
Reading a stream of packets from a data channel.

A channel hands out bytes on request. Asking for `n > 0` bytes gives between one and `n`
bytes, or fails: `noResponse` when nothing arrived in time, `connectionDropped` when the
channel is closed and empty. Asking for none gives none.

The reader takes a 20-byte header, then the payload the header announces. A short header or
payload is `frameIncomplete`; a payload that never starts counts as empty. The reader keeps
the last packet count of every stream and counts the packets that a jump in the count skips
over; the first packet of a stream is never a loss.
-/

namespace SweptSpectrum.Vrt

open Wire

/-- A source of bytes with a read timeout. -/
class DataChannel (σ : Type) where
  /-- Reads up to `n` bytes within `timeoutMs`; the channel's state afterwards. -/
  recv : σ → Nat → Nat → Except LinkError Bytes × σ
  /-- An upper bound on the bytes still to come, which bounds how often a read can succeed. -/
  pending : σ → Nat

/-- A channel over bytes held in memory: it never times out and is closed at its end. -/
structure MemoryChannel where
  rest : Bytes

instance : DataChannel MemoryChannel where
  recv ch n _ :=
    if n = 0 then (.ok [], ch)
    else match ch.rest with
      | [] => (.error .connectionDropped, ch)
      | bs => (.ok (bs.take n), ⟨bs.drop n⟩)
  pending ch := ch.rest.length

/-- Counters a reader keeps. -/
structure ReadStats where
  /-- packets decoded -/
  packetsOk : Nat := 0
  /-- of which context packets -/
  contextPackets : Nat := 0
  /-- of which data packets -/
  dataPackets : Nat := 0
  /-- packets skipped over by the counters -/
  packetsLost : Nat := 0
  /-- bytes of decoded packets -/
  bytesProcessed : Nat := 0
  deriving Repr, DecidableEq

/-- A packet reader over a channel. -/
structure Reader (σ : Type) where
  channel : σ
  timeoutMs : Nat
  /-- the last packet count seen on each stream, by stream index -/
  lastCount : Array (Option Nat) := Array.replicate StreamId.all.length none
  stats : ReadStats := {}

namespace Reader

variable {σ : Type} [DataChannel σ]

/-- The number of packets a jump from `last` to `count` skips, counts taken modulo 16. -/
def lostBetween (last count : Nat) : Nat := (count + 16 - (last + 1) % 16) % 16

/-- Records the count of a packet and adds the packets it shows lost. -/
def trackSequence (r : Reader σ) (h : Header) : Reader σ :=
  let i := h.streamId.index
  let count := h.packetCount.toNat
  let lost := match r.lastCount.getD i none with
    | some last => lostBetween last count
    | none => 0
  { r with lastCount := r.lastCount.setIfInBounds i (some count),
           stats := { r.stats with packetsLost := r.stats.packetsLost + lost } }

/-- Counts a decoded packet. -/
def countPacket (r : Reader σ) (body : Body) (bytes : Nat) : Reader σ :=
  let s := r.stats
  { r with stats := { s with packetsOk := s.packetsOk + 1, bytesProcessed := s.bytesProcessed + bytes,
                             dataPackets := s.dataPackets + (if body.isData then 1 else 0),
                             contextPackets := s.contextPackets + (if body.isData then 0 else 1) } }

/-- Reads `n` bytes from the channel. -/
def recv (r : Reader σ) (n : Nat) : Except LinkError Bytes × Reader σ :=
  let (res, ch) := DataChannel.recv r.channel n r.timeoutMs
  (res, { r with channel := ch })

/-- The payload a read gave: one that found nothing in time, or found the channel closed, gives
an empty payload; any other error stands. -/
def payloadOf (res : Except LinkError Bytes) : Except LinkError Bytes :=
  match res with
  | .error (.noResponse _) | .error .connectionDropped => .ok []
  | other => other

@[simp] theorem payloadOf_ok (bs : Bytes) : payloadOf (.ok bs) = .ok bs := rfl

@[simp] theorem payloadOf_noResponse (t : Nat) : payloadOf (.error (.noResponse t)) = .ok [] := rfl

@[simp] theorem payloadOf_connectionDropped : payloadOf (.error .connectionDropped) = .ok [] := rfl

/-- Reads and decodes one packet. -/
def readPacket (r : Reader σ) : Except LinkError Packet × Reader σ :=
  match r.recv Header.size with
  | (.error e, r) => (.error e, r)
  | (.ok hb, r) =>
    if hb.length < Header.size then (.error (.frameIncomplete Header.size hb.length), r)
    else match Header.decode hb with
      | .error e => (.error e, r)
      | .ok h =>
        let len := (h.packetSize.toNat - Header.words) * 4
        let (res, r) := r.recv len
        match payloadOf res with
        | .error e => (.error e, r)
        | .ok bs =>
          if bs.length < len then
            (.error (.frameIncomplete (Header.size + len) (Header.size + bs.length)), r)
          else match decodeBody h bs with
            | .error e => (.error e, r)
            | .ok body => (.ok ⟨h, body⟩, (r.trackSequence h).countPacket body (Header.size + len))

/-- Forgets the packet counts seen, as before a new sweep. -/
def resetSequence (r : Reader σ) : Reader σ :=
  { r with lastCount := Array.replicate StreamId.all.length none }

/-- The next packet of the stream, `none` once the channel is closed. -/
def next (r : Reader σ) : Option (Except LinkError Packet) × Reader σ :=
  match r.readPacket with
  | (.error .connectionDropped, r) => (none, r)
  | (res, r) => (some res, r)

/-- Reads packets until the channel closes, at most `fuel` of them; the first error ends. -/
def readAllWith (r : Reader σ) : Nat → List Packet → Except LinkError (List Packet) × Reader σ
  | 0, acc => (.ok acc.reverse, r)
  | fuel + 1, acc =>
    match r.next with
    | (none, r) => (.ok acc.reverse, r)
    | (some (.error e), r) => (.error e, r)
    | (some (.ok p), r) => readAllWith r fuel (p :: acc)

/-- Reads every packet until the channel closes. Each packet takes at least one pending byte,
so the channel's pending count bounds the reads. -/
def readAll (r : Reader σ) : Except LinkError (List Packet) × Reader σ :=
  r.readAllWith (DataChannel.pending r.channel + 1) []

end Reader

theorem Reader.lostBetween_next (last : Nat) : Reader.lostBetween last ((last + 1) % 16) = 0 := by
  unfold Reader.lostBetween
  omega

end SweptSpectrum.Vrt
