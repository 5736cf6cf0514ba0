import Mathlib.Data.List.Forall2
import Mathlib.Data.List.Induction
import SweptSpectrum.Vrt.Writer
import SweptSpectrum.Vrt.Reader
import SweptSpectrum.Proofs.Vrt.Packets

/-!
# Writer and reader agree over whole streams

A writer numbers the packets of each stream; a reader over the bytes it wrote gets back every
packet it wrote, in order, each as the packet decoder reads its encoding, and its counters
match the writer's: one packet and its bytes for each successful write, and as lost exactly
the counter values skipped between two packets of a stream.
-/

namespace SweptSpectrum.Vrt

open Wire

/-! ## Reading whole packets from memory -/

/-- What a successful decode has checked: a header at the front, a size the buffer covers, and
a body in the rest of that size. -/
theorem Packet.decode_eq_ok {buf : Bytes} {q : Packet} {n : Nat}
    (h : Packet.decode buf = .ok (q, n)) :
    Header.size ≤ buf.length ∧ Header.decode (buf.take Header.size) = .ok q.header ∧
      n = q.header.packetSize.toNat * 4 ∧ n ≤ buf.length ∧
      decodeBody q.header ((buf.take n).drop Header.size) = .ok q.body := by
  unfold Packet.decode at h
  simp only [bind, Except.bind, throw, throwThe, MonadExceptOf.throw, pure, Except.pure] at h
  split at h
  · cases h
  rename_i hshort
  split at h
  · cases h
  rename_i hd hhd
  split at h
  · cases h
  rename_i hlong
  split at h
  · cases h
  rename_i body hbody
  cases h
  exact ⟨by omega, hhd, rfl, by omega, hbody⟩

namespace Reader

variable {σ : Type}

/-- The reader once it has taken a packet: the packet's count checked against the last one of
its stream, and the packet and its bytes counted. A decoded packet is as long as its size
field says. -/
def accept (r : Reader σ) (q : Packet) : Reader σ :=
  (r.trackSequence q.header).countPacket q.body (q.header.packetSize.toNat * 4)

/-- A read from memory takes the first `n` bytes, as many as there are; it fails only when
memory is empty and bytes are asked for. -/
theorem recv_memory (r : Reader MemoryChannel) {bs : Bytes} (hch : r.channel = ⟨bs⟩) (n : Nat)
    (h : n = 0 ∨ bs ≠ []) :
    r.recv n = (.ok (bs.take n), { r with channel := ⟨bs.drop n⟩ }) := by
  rcases h with rfl | hne
  · simp [recv, DataChannel.recv, hch]
  · cases bs with
    | nil => exact absurd rfl hne
    | cons b bs => by_cases hn : n = 0 <;> simp [recv, DataChannel.recv, hch, hn]

theorem recv_memory_nil (r : Reader MemoryChannel) (hch : r.channel = ⟨[]⟩) {n : Nat}
    (hn : n ≠ 0) : r.recv n = (.error .connectionDropped, r) := by
  obtain ⟨ch, t, l, s⟩ := r
  cases hch
  simp [recv, DataChannel.recv, hn]

/-- Reading from memory that starts with a packet's encoding takes that packet and moves the
channel past it. -/
theorem readPacket_of_decode {r : Reader MemoryChannel} {bs more : Bytes} {q : Packet}
    (hch : r.channel = ⟨bs ++ more⟩) (hdec : Packet.decode bs = .ok (q, bs.length)) :
    r.readPacket = (.ok q, { r.accept q with channel := ⟨more⟩ }) := by
  obtain ⟨hlen, hhd, hn, -, hbody⟩ := Packet.decode_eq_ok hdec
  rw [List.take_length] at hbody
  have hsize : Header.size = 20 := rfl
  have hne : bs ++ more ≠ [] := by
    intro h
    have := congrArg List.length h
    simp only [List.length_append, List.length_nil] at this
    omega
  have hhead : (bs ++ more).take Header.size = bs.take Header.size :=
    List.take_append_of_le_length hlen
  -- the payload is what the size field announces past the header
  have hpay : (q.header.packetSize.toNat - Header.words) * 4 = bs.length - Header.size := by
    simp only [Header.words, hsize]
    omega
  have hdrop : (bs ++ more).drop Header.size = bs.drop Header.size ++ more :=
    List.drop_append_of_le_length hlen
  have hrecv := recv_memory { r with channel := ⟨(bs ++ more).drop Header.size⟩ } rfl
    ((q.header.packetSize.toNat - Header.words) * 4) (by
      by_cases h0 : bs.length - Header.size = 0
      · exact .inl (hpay.trans h0)
      · refine .inr ?_
        rw [hdrop]
        simp only [ne_eq, List.append_eq_nil_iff, List.drop_eq_nil_iff, not_and]
        omega)
  rw [hpay, hdrop, List.take_left' (by simp), List.drop_left' (by simp)] at hrecv
  have htake : (bs.take Header.size).length = Header.size := by simp [hlen]
  have htotal : Header.size + (bs.length - Header.size) = q.header.packetSize.toNat * 4 := by
    omega
  simp only [readPacket, recv_memory r hch Header.size (.inr hne), hhead, htake,
    Nat.lt_irrefl, if_false, hhd, hpay, hdrop, hrecv, payloadOf_ok, List.length_drop, hbody, htotal]
  rfl

/-- Reading memory that holds packets' encodings one after another yields those packets in
order, given more fuel than there are packets; the reader ends with nothing left to read,
having accepted each packet in turn. -/
theorem readAllWith_of_decode {ps : List Packet} {cs : List Bytes}
    (hdec : List.Forall₂ (fun q bs => Packet.decode bs = .ok (q, bs.length)) ps cs)
    (r : Reader MemoryChannel) (hch : r.channel = ⟨cs.flatten⟩) (fuel : Nat)
    (hfuel : cs.length < fuel) (acc : List Packet) :
    r.readAllWith fuel acc =
      (.ok (acc.reverse ++ ps), ps.foldl accept { r with channel := ⟨[]⟩ }) := by
  induction hdec generalizing r fuel acc with
  | nil =>
    -- an empty channel is closed: the read ends the stream
    obtain ⟨fuel, rfl⟩ : ∃ f, fuel = f + 1 := ⟨fuel - 1, by simp at hfuel; omega⟩
    obtain ⟨ch, t, l, s⟩ := r
    cases hch
    have hread : (⟨⟨[]⟩, t, l, s⟩ : Reader MemoryChannel).readPacket =
        (.error .connectionDropped, ⟨⟨[]⟩, t, l, s⟩) := by
      simp only [readPacket,
        recv_memory_nil (⟨⟨[]⟩, t, l, s⟩ : Reader MemoryChannel) rfl (by decide : Header.size ≠ 0)]
    simp [readAllWith, next, hread]
  | @cons q bs ps cs hq _ ih =>
    obtain ⟨fuel, rfl⟩ : ∃ f, fuel = f + 1 := ⟨fuel - 1, by simp at hfuel; omega⟩
    have hread := readPacket_of_decode (by simpa using hch) hq
    simp only [readAllWith, next, hread]
    rw [ih _ rfl fuel (by simpa using hfuel)]
    simp only [List.reverse_cons, List.append_assoc, List.singleton_append, List.foldl_cons]
    rfl

end Reader

/-! ## Per-stream tables

Writer and reader each keep one entry per stream, at the stream's index. -/

theorem StreamId.index_inj {s t : StreamId} : s.index = t.index ↔ s = t := by
  constructor
  · intro h
    cases s <;> cases t <;> simp_all [StreamId.index]
  · rintro rfl
    rfl

/-- Setting one stream's entry of a table with an entry per stream leaves the others. -/
theorem getD_setIfInBounds_index {α : Type} {xs : Array α} (hsize : xs.size = StreamId.all.length)
    (s t : StreamId) (a d : α) :
    (xs.setIfInBounds s.index a).getD t.index d = if t = s then a else xs.getD t.index d := by
  have hs : s.index < xs.size := hsize ▸ s.index_lt
  by_cases hts : t = s
  · subst hts
    simp [Array.getD_eq_getD_getElem?, hs]
  · have hne : s.index ≠ t.index := fun h => hts (StreamId.index_inj.mp h).symm
    simp [Array.getD_eq_getD_getElem?, hne, hts]

/-! ## Writing a stream -/

/-- An operation on a writer: a packet written to a stream, or values of a stream's counter
skipped. -/
inductive WriteOp where
  | write (id : StreamId) (ts : Timestamp) (body : Body)
  | skip (id : StreamId) (n : Nat)

namespace WriteOp

/-- The stream the operation is on. -/
def stream : WriteOp → StreamId
  | .write id _ _ | .skip id _ => id

/-- Whether the operation writes a packet that encodes: its body encodes for the stream, the
packet fits the size field and the picoseconds stay below a second. The writer's counters play
no part. -/
def encodes : WriteOp → Bool
  | .write id ts body =>
    match encodeBody id body with
    | .ok (bytes, _) =>
      decide (Header.words + bytes.length / 4 ≤ maxPacketWords) &&
        decide (ts.picoseconds.toNat < picosPerSecond)
    | .error _ => false
  | .skip .. => false

/-- What the operation skips on its stream. -/
def skipped : WriteOp → Nat
  | .write .. => 0
  | .skip _ n => n

/-- Whether the operation changes a writer: a skip, or a write that encodes. -/
def takesEffect (op : WriteOp) : Bool :=
  match op with
  | .write .. => op.encodes
  | .skip .. => true

/-- Whether a context body goes only to its own stream. -/
def fits : WriteOp → Bool
  | .write id _ body => body.fitsStream id
  | .skip .. => true

/-- The successful writes to a stream. -/
def writesOn (s : StreamId) (ops : List WriteOp) : Nat :=
  (ops.filter fun op => op.encodes && op.stream == s).length

/-- The total skipped on a stream. -/
def skipsOn (s : StreamId) (ops : List WriteOp) : Nat :=
  ((ops.filter (·.stream == s)).map skipped).sum

end WriteOp

namespace Writer

/-- The writer after an operation; a write that fails leaves it as it was. -/
def apply (w : Writer) : WriteOp → Writer
  | .write id ts body =>
    match w.writePacket id ts body with
    | .ok (_, w') => w'
    | .error _ => w
  | .skip id n => w.skipCount id n

/-- The writer after a sequence of operations. -/
def run (w : Writer) (ops : List WriteOp) : Writer := ops.foldl apply w

theorem encode_packetFor_isOk (w : Writer) (id : StreamId) (ts : Timestamp) (body : Body) :
    (w.packetFor id ts body).encode.isOk = (WriteOp.write id ts body).encodes := by
  simp only [Packet.encode, packetFor, WriteOp.encodes]
  cases encodeBody id body with
  | error e => rfl
  | ok r =>
    obtain ⟨bytes, tr⟩ := r
    by_cases hwords : Header.words + bytes.length / 4 ≤ maxPacketWords
    · have hfits : ¬ maxPacketWords < Header.words + bytes.length / 4 := Nat.not_lt.mpr hwords
      by_cases hps : ts.picoseconds.toNat < picosPerSecond
      · have hsub : ¬ picosPerSecond ≤ ts.picoseconds.toNat := Nat.not_le.mpr hps
        simp [bind, Except.bind, hwords, hfits, hps, hsub, Header.encode, pure, Except.pure,
          Except.isOk, Except.toBool]
      · simp [bind, Except.bind, hwords, hfits, hps, Nat.le_of_not_lt hps, Header.encode,
          Except.isOk, Except.toBool]
    · simp [bind, Except.bind, hwords, Nat.lt_of_not_le hwords, throw, throwThe,
        MonadExceptOf.throw, Except.isOk, Except.toBool]

theorem exists_encode_of_encodes (w : Writer) {id : StreamId} {ts : Timestamp} {body : Body}
    (h : (WriteOp.write id ts body).encodes = true) :
    ∃ bs, (w.packetFor id ts body).encode = .ok bs := by
  have hok := encode_packetFor_isOk w id ts body
  rw [h] at hok
  cases henc : (w.packetFor id ts body).encode with
  | ok bs => exact ⟨bs, rfl⟩
  | error e => simp [henc, Except.isOk, Except.toBool] at hok

/-- A write whose packet encodes appends the packet's bytes, advances its stream's counter and
counts the packet and its bytes. -/
theorem apply_write_of_encode {w : Writer} {id : StreamId} {ts : Timestamp} {body : Body}
    {bs : Bytes} (h : (w.packetFor id ts body).encode = .ok bs) :
    w.apply (.write id ts body) =
      { w.setCount id ((w.countOf id + 1) % 16) with
        chunks := bs :: w.chunks, packetsWritten := w.packetsWritten + 1,
        bytesWritten := w.bytesWritten + bs.length } := by
  simp [apply, writePacket, encodePacket, h, bind, Except.bind, pure, Except.pure, setCount]

/-- A write whose packet does not encode leaves the writer as it was. -/
theorem apply_write_of_not_encodes {w : Writer} {id : StreamId} {ts : Timestamp} {body : Body}
    (h : (WriteOp.write id ts body).encodes = false) : w.apply (.write id ts body) = w := by
  have hfail := encode_packetFor_isOk w id ts body
  rw [h] at hfail
  cases henc : (w.packetFor id ts body).encode with
  | ok bs => simp [henc, Except.isOk, Except.toBool] at hfail
  | error e => simp [apply, writePacket, encodePacket, henc, bind, Except.bind]

theorem run_append (w : Writer) (ops ops' : List WriteOp) :
    w.run (ops ++ ops') = (w.run ops).run ops' :=
  List.foldl_append

theorem run_singleton (w : Writer) (op : WriteOp) : w.run [op] = w.apply op := rfl

/-- What a writer keeps from its start: a counter per stream, each below 16, and a byte total
that is the length of what it wrote. -/
structure Valid (w : Writer) : Prop where
  size : w.nextCount.size = StreamId.all.length
  count_lt : ∀ s, w.countOf s < 16
  bytes : w.bytes.length = w.bytesWritten

theorem valid_empty : Valid {} where
  size := rfl
  count_lt s := by cases s <;> decide
  bytes := rfl

theorem countOf_setCount {w : Writer} (hsize : w.nextCount.size = StreamId.all.length)
    (s t : StreamId) (c : Nat) : (w.setCount s c).countOf t = if t = s then c else w.countOf t :=
  getD_setIfInBounds_index hsize s t c 0

/-- An operation moves only its own stream's counter: by one for a write that encodes, by the
amount for a skip. -/
theorem countOf_apply {w : Writer} (hw : Valid w) (op : WriteOp) (t : StreamId) :
    (w.apply op).countOf t =
      if op.stream = t then (w.countOf t + (if op.encodes then 1 else 0) + op.skipped) % 16
      else w.countOf t := by
  cases op with
  | write id ts body =>
    cases henc : (WriteOp.write id ts body).encodes
    · rw [apply_write_of_not_encodes henc]
      have := hw.count_lt t
      simp [WriteOp.skipped]
      omega
    · obtain ⟨bs, hbs⟩ := exists_encode_of_encodes w henc
      rw [apply_write_of_encode hbs]
      change (w.setCount id _).countOf t = _
      rw [countOf_setCount hw.size]
      by_cases hid : t = id
      · subst hid
        simp [WriteOp.stream, WriteOp.skipped]
      · simp [WriteOp.stream, hid, Ne.symm hid]
  | skip id n =>
    change (w.setCount id _).countOf t = _
    rw [countOf_setCount hw.size]
    by_cases hid : t = id
    · subst hid
      simp [WriteOp.stream, WriteOp.skipped, WriteOp.encodes]
    · simp [WriteOp.stream, hid, Ne.symm hid]

theorem Valid.apply {w : Writer} (hw : Valid w) (op : WriteOp) : Valid (w.apply op) where
  size := by
    cases op with
    | write id ts body =>
      cases henc : (WriteOp.write id ts body).encodes
      · rw [apply_write_of_not_encodes henc]
        exact hw.size
      · obtain ⟨bs, hbs⟩ := exists_encode_of_encodes w henc
        rw [apply_write_of_encode hbs]
        simpa [setCount] using hw.size
    | skip id n => simpa [Writer.apply, skipCount, setCount] using hw.size
  count_lt t := by
    rw [countOf_apply hw op t]
    split
    · exact Nat.mod_lt _ (by decide)
    · exact hw.count_lt t
  bytes := by
    cases op with
    | write id ts body =>
      cases henc : (WriteOp.write id ts body).encodes
      · rw [apply_write_of_not_encodes henc]
        exact hw.bytes
      · obtain ⟨bs, hbs⟩ := exists_encode_of_encodes w henc
        rw [apply_write_of_encode hbs]
        simp [Writer.bytes, ← hw.bytes, Nat.add_comm]
    | skip id n => exact hw.bytes

theorem Valid.run {w : Writer} (hw : Valid w) (ops : List WriteOp) : Valid (w.run ops) := by
  induction ops generalizing w with
  | nil => exact hw
  | cons op ops ih => exact ih (hw.apply op)

/-- A stream's counter stands at its successful writes plus what was skipped on it, modulo 16. -/
theorem countOf_run (ops : List WriteOp) (s : StreamId) :
    (Writer.run {} ops).countOf s = (WriteOp.writesOn s ops + WriteOp.skipsOn s ops) % 16 := by
  induction ops using List.reverseRecOn with
  | nil => cases s <;> rfl
  | append_singleton ops op ih =>
    rw [run_append, run_singleton, countOf_apply (valid_empty.run ops), ih]
    by_cases hs : op.stream = s
    · by_cases he : op.encodes <;>
        simp [WriteOp.writesOn, WriteOp.skipsOn, List.filter_append, hs, he] <;>
        omega
    · simp [WriteOp.writesOn, WriteOp.skipsOn, List.filter_append, hs]

/-- Writes that fail leave no trace: dropping them from a sequence of operations changes
nothing a writer holds. -/
theorem run_filter_takesEffect (w : Writer) (ops : List WriteOp) :
    w.run (ops.filter WriteOp.takesEffect) = w.run ops := by
  induction ops generalizing w with
  | nil => rfl
  | cons op ops ih =>
    rw [List.filter_cons]
    split
    · exact ih (w.apply op)
    · rename_i hfail
      cases op with
      | write id ts body =>
        have henc : (WriteOp.write id ts body).encodes = false := by
          simpa [WriteOp.takesEffect] using hfail
        change _ = (w.apply _).run ops
        rw [apply_write_of_not_encodes henc, ih]
      | skip id n => simp [WriteOp.takesEffect] at hfail

/-- Each successful write counts one packet. -/
theorem packetsWritten_run (ops : List WriteOp) :
    (Writer.run {} ops).packetsWritten = (ops.filter WriteOp.encodes).length := by
  induction ops using List.reverseRecOn with
  | nil => rfl
  | append_singleton ops op ih =>
    rw [run_append, run_singleton, List.filter_append, List.length_append, ← ih]
    cases op with
    | write id ts body =>
      cases henc : (WriteOp.write id ts body).encodes
      · simp [apply_write_of_not_encodes henc, henc]
      · obtain ⟨bs, hbs⟩ := exists_encode_of_encodes (Writer.run {} ops) henc
        simp [apply_write_of_encode hbs, henc]
    | skip id n => simp [Writer.apply, skipCount, setCount, WriteOp.encodes]

/-- A written packet carries its stream's counter, which stays below 16. -/
theorem packetCount_packetFor {w : Writer} (hw : w.Valid) (id : StreamId) (ts : Timestamp)
    (body : Body) : (w.packetFor id ts body).header.packetCount.toNat = w.countOf id := by
  have := hw.count_lt id
  simp only [packetFor, Nat.toUInt8, UInt8.toNat_ofNat']
  omega

end Writer

/-- A reader that decodes a written packet sees the count it was written with. -/
theorem packetCount_normalize {w : Writer} (hw : w.Valid) (id : StreamId) (ts : Timestamp)
    (body : Body) (words : Nat) :
    ((w.packetFor id ts body).normalize words).header.packetCount.toNat = w.countOf id := by
  have hcount := Writer.packetCount_packetFor hw id ts body
  have := hw.count_lt id
  simp only [Packet.normalize, Packet.wireHeader, hcount, Nat.toUInt8, UInt8.toNat_ofNat']
  omega

/-! ## Losses a reader must count -/

/-- What a reader of the stream must count as lost, followed along the operations: for each
stream, nothing before its first packet and afterwards what was skipped since its last one;
and the total so far. -/
structure Gaps where
  since : StreamId → Option Nat := fun _ => none
  lost : Nat := 0

namespace Gaps

/-- The gaps after an operation: a skip widens its stream's gap once the stream has had a
packet; a packet closes its stream's gap and adds it, modulo 16, to what is lost. -/
def step (g : Gaps) : WriteOp → Gaps
  | .skip s n => { g with since := fun t => if t = s then (g.since s).map (· + n) else g.since t }
  | .write s ts body =>
    if (WriteOp.write s ts body).encodes then
      { since := fun t => if t = s then some 0 else g.since t
        lost := g.lost + ((g.since s).map (· % 16)).getD 0 }
    else g

end Gaps

/-- The packets a reader counts as lost in what a fresh writer writes: for each successful
write to a stream after its first, what was skipped on that stream since the write before,
modulo 16. -/
def WriteOp.lostOf (ops : List WriteOp) : Nat := (ops.foldl Gaps.step {}).lost

theorem WriteOp.encodes_of_encode {w : Writer} {id : StreamId} {ts : Timestamp} {body : Body}
    {bs : Bytes} (h : (w.packetFor id ts body).encode = .ok bs) :
    (WriteOp.write id ts body).encodes = true := by
  rw [← Writer.encode_packetFor_isOk w, h]
  rfl

namespace Gaps

theorem step_write_of_encodes (g : Gaps) {s : StreamId} {ts : Timestamp} {body : Body}
    (h : (WriteOp.write s ts body).encodes = true) :
    g.step (.write s ts body) =
      { since := fun t => if t = s then some 0 else g.since t
        lost := g.lost + ((g.since s).map (· % 16)).getD 0 } := by
  simp [step, h]

theorem step_write_of_not_encodes (g : Gaps) {s : StreamId} {ts : Timestamp} {body : Body}
    (h : (WriteOp.write s ts body).encodes = false) : g.step (.write s ts body) = g := by
  simp [step, h]

end Gaps

namespace Reader

variable {σ : Type}

theorem accept_lastCount (r : Reader σ) (q : Packet) :
    (r.accept q).lastCount =
      r.lastCount.setIfInBounds q.header.streamId.index (some q.header.packetCount.toNat) := rfl

theorem accept_packetsLost (r : Reader σ) (q : Packet) :
    (r.accept q).stats.packetsLost = r.stats.packetsLost +
      ((r.lastCount.getD q.header.streamId.index none).map
        (lostBetween · q.header.packetCount.toNat)).getD 0 := by
  simp only [accept, trackSequence, countPacket]
  cases r.lastCount.getD q.header.streamId.index none <;> rfl

@[simp] theorem accept_packetsOk (r : Reader σ) (q : Packet) :
    (r.accept q).stats.packetsOk = r.stats.packetsOk + 1 := rfl

@[simp] theorem accept_bytesProcessed (r : Reader σ) (q : Packet) :
    (r.accept q).stats.bytesProcessed = r.stats.bytesProcessed + q.header.packetSize.toNat * 4 :=
  rfl

/-- Every packet taken is a context or a data packet. -/
theorem accept_kinds (r : Reader σ) (q : Packet) :
    (r.accept q).stats.contextPackets + (r.accept q).stats.dataPackets =
      r.stats.contextPackets + r.stats.dataPackets + 1 := by
  simp only [accept, countPacket, trackSequence]
  split <;> omega

/-- A count `k` values past the one after `last` shows `k` packets lost, modulo 16. -/
theorem lostBetween_skip (last k : Nat) : lostBetween last ((last + 1 + k) % 16) = k % 16 := by
  unfold lostBetween
  omega

end Reader

section Synced

variable {σ : Type}

/-- A writer, and a reader that has taken every packet it wrote, in step stream by stream: a
stream without packets has no count at the reader; otherwise the writer's counter is one past
the reader's last count and past what was skipped since. The reader has counted every packet
and its bytes, and as lost what the gaps say. -/
structure Synced (w : Writer) (r : Reader σ) (g : Gaps) : Prop where
  last_size : r.lastCount.size = StreamId.all.length
  fresh : ∀ s, g.since s = none → r.lastCount.getD s.index none = none
  gap : ∀ s k, g.since s = some k →
    ∃ last, r.lastCount.getD s.index none = some last ∧ w.countOf s = (last + 1 + k) % 16
  packets : r.stats.packetsOk = w.packetsWritten
  kinds : r.stats.contextPackets + r.stats.dataPackets = r.stats.packetsOk
  bytes : r.stats.bytesProcessed = w.bytesWritten
  lost : r.stats.packetsLost = g.lost

/-- A fresh reader is in step with a fresh writer. -/
theorem synced_empty {r : Reader σ} (hlast : r.lastCount = Array.replicate StreamId.all.length none)
    (hstats : r.stats = {}) : Synced {} r {} where
  last_size := by simp [hlast]
  fresh s _ := by
    simp only [hlast, Array.getD_eq_getD_getElem?, Array.getElem?_replicate]
    split <;> rfl
  gap s k h := by simp at h
  packets := by simp [hstats]
  kinds := by simp [hstats]
  bytes := by simp [hstats]
  lost := by simp [hstats]

/-- A write that encodes keeps writer and reader in step once the reader takes its packet: the
packet is on the written stream, carries the stream's counter and is as long as its bytes. -/
theorem Synced.write {w : Writer} {r : Reader σ} {g : Gaps} (hw : w.Valid) (hsync : Synced w r g)
    {id : StreamId} {ts : Timestamp} {body : Body} {bs : Bytes}
    (hbs : (w.packetFor id ts body).encode = .ok bs) {q : Packet} (hs : q.header.streamId = id)
    (hc : q.header.packetCount.toNat = w.countOf id)
    (hn : q.header.packetSize.toNat * 4 = bs.length) :
    Synced (w.apply (.write id ts body)) (r.accept q) (g.step (.write id ts body)) := by
  have hlast (t : StreamId) : (r.accept q).lastCount.getD t.index none =
      if t = id then some (w.countOf id) else r.lastCount.getD t.index none := by
    rw [Reader.accept_lastCount, hs, hc, getD_setIfInBounds_index hsync.last_size]
  have hcount (t : StreamId) : (w.apply (.write id ts body)).countOf t =
      if t = id then (w.countOf id + 1) % 16 else w.countOf t := by
    rw [Writer.apply_write_of_encode hbs]
    exact Writer.countOf_setCount hw.size id t _
  rw [Gaps.step_write_of_encodes g (WriteOp.encodes_of_encode hbs)]
  constructor
  · simp [Reader.accept_lastCount, hsync.last_size]
  · intro t ht
    by_cases hti : t = id
    · simp [hti] at ht
    · simp only [hti, if_false] at ht
      rw [hlast, if_neg hti]
      exact hsync.fresh t ht
  · intro t k ht
    by_cases hti : t = id
    · -- the written stream: its gap is closed, and its counter is one past the new count
      subst hti
      simp only [if_true, Option.some.injEq] at ht
      subst ht
      exact ⟨w.countOf t, by rw [hlast, if_pos rfl], by rw [hcount, if_pos rfl]⟩
    · simp only [hti, if_false] at ht
      obtain ⟨last, hl, hwc⟩ := hsync.gap t k ht
      exact ⟨last, by rw [hlast, if_neg hti, hl], by rw [hcount, if_neg hti, hwc]⟩
  · rw [Writer.apply_write_of_encode hbs, Reader.accept_packetsOk, hsync.packets]
  · rw [Reader.accept_kinds, hsync.kinds, Reader.accept_packetsOk]
  · rw [Writer.apply_write_of_encode hbs, Reader.accept_bytesProcessed, hsync.bytes, hn]
  · rw [Reader.accept_packetsLost, hsync.lost, hs, hc]
    cases hg : g.since id with
    | none => simp [hsync.fresh id hg]
    | some k =>
      obtain ⟨last, hl, hwc⟩ := hsync.gap id k hg
      simp [hl, hwc, Reader.lostBetween_skip]

/-- A skip keeps writer and reader in step: the reader learns of it at the stream's next
packet. -/
theorem Synced.skip {w : Writer} {r : Reader σ} {g : Gaps} (hw : w.Valid) (hsync : Synced w r g)
    (id : StreamId) (n : Nat) : Synced (w.apply (.skip id n)) r (g.step (.skip id n)) := by
  have hcount (t : StreamId) : (w.apply (.skip id n)).countOf t =
      if t = id then (w.countOf id + n) % 16 else w.countOf t :=
    Writer.countOf_setCount hw.size id t _
  refine ⟨hsync.last_size, ?_, ?_, hsync.packets, hsync.kinds, hsync.bytes, hsync.lost⟩
  · intro t ht
    by_cases hti : t = id
    · subst hti
      simp only [Gaps.step, if_true, Option.map_eq_none_iff] at ht
      exact hsync.fresh t ht
    · simp only [Gaps.step, hti, if_false] at ht
      exact hsync.fresh t ht
  · intro t k ht
    by_cases hti : t = id
    · -- the skipped stream: its gap and its counter grow by the same amount
      subst hti
      simp only [Gaps.step, if_true, Option.map_eq_some_iff] at ht
      obtain ⟨k', hk', rfl⟩ := ht
      obtain ⟨last, hl, hwc⟩ := hsync.gap t k' hk'
      refine ⟨last, hl, ?_⟩
      rw [hcount, if_pos rfl, hwc]
      omega
    · simp only [Gaps.step, hti, if_false] at ht
      obtain ⟨last, hl, hwc⟩ := hsync.gap t k ht
      exact ⟨last, hl, by rw [hcount, if_neg hti, hwc]⟩

/-- Over a sequence of operations that puts context bodies only on their own streams, the
writer's chunks are each the encoding of a packet, and a reader that took those packets in
order is in step with the writer. -/
theorem synced_run {r₀ : Reader σ} (h₀ : Synced {} r₀ {}) (ops : List WriteOp)
    (hfit : ∀ op ∈ ops, op.fits = true) :
    ∃ ps, List.Forall₂ (fun q bs => Packet.decode bs = .ok (q, bs.length)) ps
        (Writer.run {} ops).chunks.reverse ∧
      Synced (Writer.run {} ops) (ps.foldl Reader.accept r₀) (ops.foldl Gaps.step {}) := by
  induction ops using List.reverseRecOn with
  | nil => exact ⟨[], .nil, h₀⟩
  | append_singleton ops op ih =>
    obtain ⟨ps, hps, hsync⟩ := ih fun op hop => hfit op (List.mem_append_left _ hop)
    have hw := Writer.valid_empty.run ops
    have hop : op.fits = true := hfit op (by simp)
    rw [Writer.run_append, Writer.run_singleton, List.foldl_append, List.foldl_cons,
      List.foldl_nil]
    cases op with
    | write id ts body =>
      cases henc : (WriteOp.write id ts body).encodes
      · rw [Writer.apply_write_of_not_encodes henc, Gaps.step_write_of_not_encodes _ henc]
        exact ⟨ps, hps, hsync⟩
      · -- the new chunk decodes to the written packet, which the reader takes last
        obtain ⟨bs, hbs⟩ := Writer.exists_encode_of_encodes (Writer.run {} ops) henc
        have hdec := Packet.decode_encode hbs hop []
        rw [List.append_nil] at hdec
        obtain ⟨-, -, hn, -, -⟩ := Packet.decode_eq_ok hdec
        refine ⟨ps ++ [((Writer.run {} ops).packetFor id ts body).normalize (bs.length / 4)],
          ?_, ?_⟩
        · rw [Writer.apply_write_of_encode hbs, List.reverse_cons]
          exact List.rel_append hps (List.Forall₂.cons hdec .nil)
        · rw [List.foldl_append, List.foldl_cons, List.foldl_nil]
          exact hsync.write hw hbs rfl (packetCount_normalize hw id ts body _) hn.symm
    | skip id n => exact ⟨ps, hps, hsync.skip hw id n⟩

end Synced

/-- Packet encodings are at least a header long, so there are no more of them than bytes. -/
theorem length_le_length_flatten {ps : List Packet} {cs : List Bytes}
    (h : List.Forall₂ (fun q bs => Packet.decode bs = .ok (q, bs.length)) ps cs) :
    cs.length ≤ cs.flatten.length := by
  induction h with
  | nil => simp
  | cons hq _ ih =>
    obtain ⟨hlen, -⟩ := Packet.decode_eq_ok hq
    simp only [List.length_cons, List.flatten_cons, List.length_append]
    have : Header.size = 20 := rfl
    omega

/-! ## Writer and reader agree -/

/-- A fresh reader over everything a fresh writer wrote, where context bodies went only to their
own streams, reads back every written packet in order, each as the packet decoder reads its
encoding. Its counters match the writer's: a packet and its bytes for each successful write,
and as lost, at each packet of a stream after its first, what was skipped on the stream since
the packet before, modulo 16. Writes that fail leave no trace, and the packets of a stream are
numbered by the successful writes and the skips on it before them. -/
theorem readAll_writtenStream (ops : List WriteOp) (hfit : ∀ op ∈ ops, op.fits = true)
    (timeoutMs : Nat) :
    Writer.run {} (ops.filter WriteOp.takesEffect) = Writer.run {} ops ∧
    (∀ pre id ts body post, ops = pre ++ .write id ts body :: post →
      ((Writer.run {} pre).packetFor id ts body).header.packetCount.toNat =
        (WriteOp.writesOn id pre + WriteOp.skipsOn id pre) % 16) ∧
    ∃ ps r, ({ channel := ⟨(Writer.run {} ops).bytes⟩, timeoutMs } : Reader MemoryChannel).readAll =
        (.ok ps, r) ∧
      List.Forall₂ (fun q bs => Packet.decode bs = .ok (q, bs.length)) ps
        (Writer.run {} ops).chunks.reverse ∧
      r.stats.packetsOk = (ops.filter WriteOp.encodes).length ∧
      r.stats.contextPackets + r.stats.dataPackets = r.stats.packetsOk ∧
      r.stats.packetsOk = (Writer.run {} ops).packetsWritten ∧
      r.stats.bytesProcessed = (Writer.run {} ops).bytes.length ∧
      (Writer.run {} ops).bytes.length = (Writer.run {} ops).bytesWritten ∧
      r.stats.packetsLost = WriteOp.lostOf ops := by
  refine ⟨Writer.run_filter_takesEffect {} ops, ?_, ?_⟩
  · intro pre id ts body post _
    rw [Writer.packetCount_packetFor (Writer.valid_empty.run pre), Writer.countOf_run]
  · have h₀ : Synced {} ({ channel := ⟨[]⟩, timeoutMs } : Reader MemoryChannel) {} :=
      synced_empty rfl rfl
    obtain ⟨ps, hps, hsync⟩ := synced_run h₀ ops hfit
    have hread := Reader.readAllWith_of_decode hps
      ({ channel := ⟨(Writer.run {} ops).bytes⟩, timeoutMs } : Reader MemoryChannel) rfl
      ((Writer.run {} ops).bytes.length + 1)
      (Nat.lt_succ_of_le (length_le_length_flatten hps)) []
    have hw := Writer.valid_empty.run ops
    exact ⟨ps, _, hread, hps, hsync.packets.trans (Writer.packetsWritten_run ops), hsync.kinds,
      hsync.packets, hsync.bytes.trans hw.bytes.symm, hw.bytes, hsync.lost⟩

/-- A receiver context, then two data packets with 17 counter values skipped between them, and
two writes that fail: one with a whole second of picoseconds, one of 16-bit samples to the
32-bit stream. Three packets come back and one is lost. -/
theorem readAll_writtenStream_gap :
    let ops := [.write .receiver {} (.receiver {}),
      .write .i16 {} (.ifData { samples := .real16 [1, -1] }),
      .skip .i16 17,
      .write .i16 {} (.ifData { samples := .real16 [2, -2] }),
      .write .i16 ⟨0, 1000000000000⟩ (.ifData { samples := .real16 [3, -3] }),
      .write .i32 {} (.ifData { samples := .real16 [4, -4] })]
    (∀ op ∈ ops, op.fits = true) ∧
      ∃ ps r, ({ channel := ⟨(Writer.run {} ops).bytes⟩, timeoutMs := 0 } :
          Reader MemoryChannel).readAll = (.ok ps, r) ∧
        r.stats.packetsOk = 3 ∧ r.stats.packetsLost = 1 := by
  intro ops
  have hfit : ∀ op ∈ ops, op.fits = true := by decide
  obtain ⟨-, -, ps, r, hread, -, hok, -, -, -, -, hlost⟩ := readAll_writtenStream ops hfit 0
  have hwrites : (ops.filter WriteOp.encodes).length = 3 := by decide
  have hlostOf : WriteOp.lostOf ops = 1 := by decide
  exact ⟨hfit, ps, r, hread, hok.trans hwrites, hlost.trans hlostOf⟩

end SweptSpectrum.Vrt
