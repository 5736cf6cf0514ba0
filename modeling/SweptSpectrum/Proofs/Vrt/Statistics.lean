import SweptSpectrum.Proofs.Vrt.Framing

/-!
# A reader's counters over any sequence of reads and resets

A reader is used by calls of two kinds: reading a packet, and forgetting the counts seen
(`ReadOp`). Each call gives a packet, an error or a reset (`ReadEvent`). Over any channel and any
sequence of calls on a new reader, the counters say what the events say: one packet, and its
size in bytes, for each successful read; as lost, for each packet after the first of its stream
since the last reset, the counts skipped since the stream's previous packet, modulo 16
(`ReadEvent.lostIn`); and the reader's last count of a stream is the count of the stream's last
packet since the last reset. A read that fails changes no counter and no last count.

All a read can do is said once (`Reader.readPacket_frame`); each call keeps the invariant
`Tallies` (`Tallies.perform`), and so does every sequence of calls (`Tallies.performAll`).
-/

namespace SweptSpectrum.Vrt

/-- A call on a reader. -/
inductive ReadOp where
  | read
  | reset
  deriving Repr, DecidableEq

/-- What a call on a reader gave. -/
inductive ReadEvent where
  | packet (q : Packet)
  | failed (e : LinkError)
  | reset

namespace ReadEvent

/-- The packets among events. -/
def packetsIn (evs : List ReadEvent) : List Packet :=
  evs.filterMap fun
    | .packet q => some q
    | _ => none

@[simp] theorem packetsIn_nil : packetsIn [] = [] := rfl

@[simp] theorem packetsIn_append (evs evs' : List ReadEvent) :
    packetsIn (evs ++ evs') = packetsIn evs ++ packetsIn evs' := by
  simp [packetsIn, List.filterMap_append]

@[simp] theorem packetsIn_packet (q : Packet) : packetsIn [.packet q] = [q] := rfl

@[simp] theorem packetsIn_failed (e : LinkError) : packetsIn [.failed e] = [] := rfl

@[simp] theorem packetsIn_reset : packetsIn [.reset] = [] := rfl

/-- The packets skipped between a packet counted `c₁` and the next one of its stream, counted
`c₂`, counts taken modulo 16. -/
def countGap (c₁ c₂ : Nat) : Nat := (((c₂ : Int) - c₁ - 1) % 16).toNat

/-- The count of the last packet of stream `s` since the last reset, in events taken latest
first. -/
def lastCountIn (s : StreamId) : List ReadEvent → Option Nat
  | [] => none
  | .reset :: _ => none
  | .failed _ :: evs => lastCountIn s evs
  | .packet q :: evs =>
    if q.header.streamId = s then some q.header.packetCount.toNat else lastCountIn s evs

/-- The packets lost over events taken latest first: each packet adds the counts skipped since
the previous packet of its stream, when one came since the last reset. -/
def lostIn : List ReadEvent → Nat
  | [] => 0
  | .packet q :: evs =>
    lostIn evs +
      ((lastCountIn q.header.streamId evs).map (countGap · q.header.packetCount.toNat)).getD 0
  | .failed _ :: evs => lostIn evs
  | .reset :: evs => lostIn evs

end ReadEvent

open ReadEvent

/-- The reader's count of lost packets is the gap between the counts. -/
@[simp] theorem Reader.lostBetween_eq_countGap (last count : Nat) :
    Reader.lostBetween last count = countGap last count := by
  unfold Reader.lostBetween countGap
  omega

/-- The gap wraps around: from 15 to 0 nothing is lost, and from 3 back to 2 fourteen packets. -/
example : countGap 15 0 = 0 ∧ countGap 3 2 = 14 := by decide

theorem getD_replicate_none (s : StreamId) :
    (Array.replicate StreamId.all.length (none : Option Nat)).getD s.index none = none := by
  simp only [Array.getD_eq_getD_getElem?, Array.getElem?_replicate]
  split <;> rfl

namespace Reader

variable {σ : Type}

/-- One call on a reader: what it gave, and the reader after it. -/
def perform [DataChannel σ] (r : Reader σ) : ReadOp → ReadEvent × Reader σ
  | .read =>
    match r.readPacket with
    | (.ok q, r') => (.packet q, r')
    | (.error e, r') => (.failed e, r')
  | .reset => (.reset, r.resetSequence)

/-- Calls made one after another on a reader: what each gave, in order, and the reader after
the last. -/
def performAll [DataChannel σ] (r : Reader σ) : List ReadOp → List ReadEvent × Reader σ
  | [] => ([], r)
  | op :: ops =>
    let step := r.perform op
    let rest := step.2.performAll ops
    (step.1 :: rest.1, rest.2)

theorem recv_eq [DataChannel σ] (r : Reader σ) (n : Nat) :
    r.recv n = ((DataChannel.recv r.channel n r.timeoutMs).1,
      { r with channel := (DataChannel.recv r.channel n r.timeoutMs).2 }) := rfl

/-- All a read can do, over any channel: fail, having moved the channel only, or take a packet
as `accept` does, having moved the channel. The counters change only once both reads, the header
and the body have succeeded. -/
theorem readPacket_frame [DataChannel σ] (r : Reader σ) :
    (∃ e ch, r.readPacket = (.error e, { r with channel := ch })) ∨
      ∃ q ch, r.readPacket = (.ok q, { r.accept q with channel := ch }) := by
  unfold readPacket
  rw [recv_eq]
  generalize DataChannel.recv r.channel Header.size r.timeoutMs = first
  obtain ⟨res, ch₁⟩ := first
  cases res with
  | error e => exact .inl ⟨e, ch₁, rfl⟩
  | ok hb =>
  dsimp only
  by_cases hshort : hb.length < Header.size
  · exact .inl ⟨_, ch₁, by rw [if_pos hshort]⟩
  rw [if_neg hshort]
  cases hhead : Header.decode hb with
  | error e => exact .inl ⟨e, ch₁, rfl⟩
  | ok h =>
  dsimp only
  rw [recv_eq]
  generalize DataChannel.recv ch₁ _ r.timeoutMs = second
  obtain ⟨res, ch₂⟩ := second
  -- the payload: a read that never starts gives none, any other error ends the read
  split
  · exact .inl ⟨_, ch₂, rfl⟩
  rename_i bs _
  by_cases hpay : bs.length < (h.packetSize.toNat - Header.words) * 4
  · exact .inl ⟨_, ch₂, by rw [if_pos hpay]⟩
  rw [if_neg hpay]
  cases hbody : decodeBody h bs with
  | error e => exact .inl ⟨e, ch₂, rfl⟩
  | ok body =>
  -- the bytes counted are the whole packet's, as the size field says
  have htotal : Header.size + (h.packetSize.toNat - Header.words) * 4 = h.packetSize.toNat * 4 := by
    have hwords := Header.words_le_of_decode hhead
    unfold Header.size
    omega
  rw [htotal]
  exact .inr ⟨⟨h, body⟩, ch₂, rfl⟩

/-- A read that fails changes neither the counters nor the last counts. -/
theorem readPacket_error [DataChannel σ] {r r' : Reader σ} {e : LinkError}
    (h : r.readPacket = (.error e, r')) : r'.stats = r.stats ∧ r'.lastCount = r.lastCount := by
  rcases readPacket_frame r with ⟨e', ch, hread⟩ | ⟨q, ch, hread⟩
  · rw [hread] at h
    cases h
    exact ⟨rfl, rfl⟩
  · rw [hread] at h
    cases h

end Reader

/-! ## The invariant -/

section Tallies

variable {σ : Type}

/-- What a reader's counters and last counts say after the events `evs`, in order: a last
count for each stream, that of the stream's last packet since the last reset; a packet, of one
kind or the other, and its bytes for each packet read; and the losses `lostIn` counts. -/
structure Tallies (r : Reader σ) (evs : List ReadEvent) : Prop where
  last_size : r.lastCount.size = StreamId.all.length
  last : ∀ s, r.lastCount.getD s.index none = lastCountIn s evs.reverse
  packets : r.stats.packetsOk = (packetsIn evs).length
  kinds : r.stats.contextPackets + r.stats.dataPackets = r.stats.packetsOk
  bytes : r.stats.bytesProcessed = ((packetsIn evs).map fun q => 4 * q.header.packetSize.toNat).sum
  lost : r.stats.packetsLost = lostIn evs.reverse

variable {r : Reader σ} {evs : List ReadEvent}

/-- A new reader has seen nothing. -/
theorem Tallies.new (ch : σ) (t : Nat) : Tallies ({ channel := ch, timeoutMs := t } : Reader σ) [] where
  last_size := by simp
  last s := getD_replicate_none s
  packets := rfl
  kinds := rfl
  bytes := rfl
  lost := rfl

/-- A failed read moves the channel only. -/
theorem Tallies.failed (hr : Tallies r evs) (e : LinkError) (ch : σ) :
    Tallies { r with channel := ch } (evs ++ [.failed e]) where
  last_size := hr.last_size
  last s := by simpa [lastCountIn] using hr.last s
  packets := by simpa using hr.packets
  kinds := hr.kinds
  bytes := by simpa using hr.bytes
  lost := by simpa [lostIn] using hr.lost

/-- A packet taken is counted, with its bytes and what its count shows lost, and becomes the
last of its stream. -/
theorem Tallies.packet (hr : Tallies r evs) (q : Packet) (ch : σ) :
    Tallies { r.accept q with channel := ch } (evs ++ [.packet q]) where
  last_size := by simp [Reader.accept_lastCount, hr.last_size]
  last s := by
    show (r.accept q).lastCount.getD s.index none = _
    rw [Reader.accept_lastCount, getD_setIfInBounds_index hr.last_size, hr.last s]
    by_cases hs : q.header.streamId = s
    · simp [lastCountIn, hs]
    · simp [lastCountIn, hs, Ne.symm hs]
  packets := by simp [hr.packets]
  kinds := by
    show (r.accept q).stats.contextPackets + (r.accept q).stats.dataPackets = (r.accept q).stats.packetsOk
    rw [Reader.accept_kinds, hr.kinds, Reader.accept_packetsOk]
  bytes := by
    show (r.accept q).stats.bytesProcessed = _
    simp only [Reader.accept_bytesProcessed, hr.bytes, packetsIn_append, packetsIn_packet,
      List.map_append, List.sum_append, List.map_cons, List.map_nil, List.sum_cons, List.sum_nil]
    omega
  lost := by
    show (r.accept q).stats.packetsLost = _
    rw [Reader.accept_packetsLost, hr.lost, hr.last]
    simp [lostIn]

/-- A reset forgets every last count and keeps the counters. -/
theorem Tallies.reset (hr : Tallies r evs) : Tallies r.resetSequence (evs ++ [.reset]) where
  last_size := by simp [Reader.resetSequence]
  last s := by simpa [Reader.resetSequence, lastCountIn] using getD_replicate_none s
  packets := by simpa [Reader.resetSequence] using hr.packets
  kinds := hr.kinds
  bytes := by simpa [Reader.resetSequence] using hr.bytes
  lost := by simpa [Reader.resetSequence, lostIn] using hr.lost

variable [DataChannel σ]

/-- Every call keeps the invariant. -/
theorem Tallies.perform (hr : Tallies r evs) (op : ReadOp) :
    Tallies (r.perform op).2 (evs ++ [(r.perform op).1]) := by
  cases op with
  | read =>
    rcases Reader.readPacket_frame r with ⟨e, ch, hread⟩ | ⟨q, ch, hread⟩
    · simp only [Reader.perform, hread]
      exact hr.failed e ch
    · simp only [Reader.perform, hread]
      exact hr.packet q ch
  | reset => exact hr.reset

/-- Every sequence of calls keeps the invariant. -/
theorem Tallies.performAll (hr : Tallies r evs) (ops : List ReadOp) :
    Tallies (r.performAll ops).2 (evs ++ (r.performAll ops).1) := by
  induction ops generalizing r evs with
  | nil => simpa [Reader.performAll] using hr
  | cons op ops ih =>
    have hrest := ih (hr.perform op)
    simpa [Reader.performAll, List.append_assoc] using hrest

end Tallies

/-- A reader's statistics over any channel and any sequence of reads and resets on a new
reader. Every packet read is a context or a data packet; the packets counted are the successful
reads, and the bytes their sizes in bytes; the packets lost are, for each packet read after the
first of its stream since creation or the last reset, the counts skipped since the stream's
previous packet, modulo 16; and each stream's last count is that of its last packet since the
last reset. A read that fails, from any reader, changes no counter and no last count. -/
theorem reader_statistics {σ : Type} [DataChannel σ] (ch : σ) (t : Nat) (ops : List ReadOp) :
    let run := ({ channel := ch, timeoutMs := t } : Reader σ).performAll ops
    run.2.stats.packetsOk = run.2.stats.contextPackets + run.2.stats.dataPackets ∧
    run.2.stats.packetsOk = (packetsIn run.1).length ∧
    run.2.stats.bytesProcessed = ((packetsIn run.1).map fun q => 4 * q.header.packetSize.toNat).sum ∧
    run.2.stats.packetsLost = lostIn run.1.reverse ∧
    (∀ s : StreamId, run.2.lastCount.getD s.index none = lastCountIn s run.1.reverse) ∧
    ∀ (r r' : Reader σ) (e : LinkError), r.readPacket = (.error e, r') →
      r'.stats = r.stats ∧ r'.lastCount = r.lastCount := by
  intro run
  have hrun := (Tallies.new ch t).performAll ops
  rw [List.nil_append] at hrun
  exact ⟨hrun.kinds.symm, hrun.packets, hrun.bytes, hrun.lost, hrun.last,
    fun r r' e h => Reader.readPacket_error h⟩

end SweptSpectrum.Vrt
