import SweptSpectrum.Proofs.Vrt.Statistics
import SweptSpectrum.Instrument.Simulator

/-!
# The simulator's data channel is a byte stream

The simulator sends each packet as a chunk on its data channel. A read takes bytes from the rest
of the chunk being read and then from the chunks after it, so chunk boundaries and request
boundaries may cut each other anywhere; the channel keeps the rest of a chunk and the position of
the next one across reads.

All that matters of a channel state is the bytes it still holds (`Simulator.stream`): a read of
`n` bytes takes the first `n` of them, as many as there are, and with nothing left reports the end
of data, as a closed channel once the instrument is gone and as a timeout before that
(`Simulator.recv_stream`). So every sequence of reads gets consecutive pieces of the stream
(`Simulator.recvAll_stream`), and a reader over the simulator reads what a reader over the same
bytes in memory reads, the same packets, errors and counters, but that it may report the end of
the data as a timeout (`simulator_reads_as_memory`).

The reader half holds of any two channels where one follows the other (`Follows`): the same
answers up to how the end is reported, and states that keep corresponding. A packet read
through both gives the same result up to that report (`Follows.readPacket`), and so does every
sequence of reads and resets (`Follows.performAll`).
-/

namespace SweptSpectrum.Vrt

open Wire

/-! ## Channels that give the same bytes -/

/-- The error `err`, but the closing of the channel reported as `e`. -/
def LinkError.endAs : LinkError → LinkError → LinkError
  | .connectionDropped, e => e
  | err, _ => err

theorem LinkError.endAs_of_ne (e : LinkError) {err : LinkError} (h : err ≠ .connectionDropped) :
    err.endAs e = err := by
  cases err
  case connectionDropped => exact absurd rfl h
  all_goals rfl

/-- An answer in which the closing of the channel is reported as `e`. -/
def endAs {α : Type} (e : LinkError) : Except LinkError α → Except LinkError α
  | .error err => .error (err.endAs e)
  | .ok a => .ok a

theorem endAs_error {α : Type} (e err : LinkError) :
    endAs e (.error err : Except LinkError α) = .error (err.endAs e) := rfl

theorem endAs_ok {α : Type} (e : LinkError) (a : α) : endAs e (.ok a) = .ok a := rfl

/-- An error other than the closing of the channel is reported as it is. -/
theorem endAs_error_of_ne {α : Type} (e : LinkError) {err : LinkError}
    (h : err ≠ .connectionDropped) : endAs e (.error err : Except LinkError α) = .error err := by
  rw [endAs_error, LinkError.endAs_of_ne e h]

/-- An event in which the closing of the channel is reported as `e`. -/
def ReadEvent.endAs (e : LinkError) : ReadEvent → ReadEvent
  | .failed err => .failed (err.endAs e)
  | ev => ev

@[simp] theorem ReadEvent.packetsIn_map_endAs (e : LinkError) (evs : List ReadEvent) :
    packetsIn (evs.map (ReadEvent.endAs e)) = packetsIn evs := by
  induction evs with
  | nil => rfl
  | cons ev evs ih =>
    have hhead : packetsIn [ev.endAs e] = packetsIn [ev] := by
      cases ev with
      | failed err => rfl
      | packet q => rfl
      | reset => rfl
    rw [List.map_cons, ← List.singleton_append, packetsIn_append, ih, hhead, ← packetsIn_append,
      List.singleton_append]

/-- A memory read takes the first `n` bytes, as many as there are; with nothing left it reports
the channel closed. -/
theorem MemoryChannel.recv_eq (bs : Bytes) (n t : ℕ) :
    DataChannel.recv (⟨bs⟩ : MemoryChannel) n t =
      (if n ≠ 0 ∧ bs = [] then .error .connectionDropped else .ok (bs.take n), ⟨bs.drop n⟩) := by
  by_cases hn : n = 0
  · subst hn
    simp [DataChannel.recv]
  · cases bs with
    | nil => simp [DataChannel.recv, hn]
    | cons b bs => simp [DataChannel.recv, hn]

/-- Reads one after another, of the given lengths: what each gave, and the channel after the last. -/
def DataChannel.recvAll {σ : Type} [DataChannel σ] (a : σ) (t : ℕ) :
    List ℕ → List (Except LinkError Bytes) × σ
  | [] => ([], a)
  | n :: ns =>
    let step := DataChannel.recv a n t
    let rest := recvAll step.2 t ns
    (step.1 :: rest.1, rest.2)

/-- What reads of the given lengths get from a byte stream: consecutive pieces, each as long as
asked or as what is left, and `e` for a read that asks for bytes when none are left. -/
def segments (bs : Bytes) (e : LinkError) : List ℕ → List (Except LinkError Bytes)
  | [] => []
  | n :: ns => (if n ≠ 0 ∧ bs = [] then .error e else .ok (bs.take n)) :: segments (bs.drop n) e ns

namespace Reader

/-- `r'` is the reader `r` with its channel seen through `f`: the same counts and timeout. -/
structure Image {σ τ : Type} (f : σ → τ) (r : Reader σ) (r' : Reader τ) : Prop where
  channel : r'.channel = f r.channel
  timeoutMs : r'.timeoutMs = r.timeoutMs
  lastCount : r'.lastCount = r.lastCount
  stats : r'.stats = r.stats

namespace Image

variable {σ τ : Type} {f : σ → τ} {r : Reader σ} {r' : Reader τ}

theorem withChannel (hR : Image f r r') {a : σ} {a' : τ} (ha : a' = f a) :
    Image f { r with channel := a } { r' with channel := a' } :=
  ⟨ha, hR.timeoutMs, hR.lastCount, hR.stats⟩

/-- Counting a packet on a reader and on its image. -/
theorem count (hR : Image f r r') (h : Header) (body : Body) (n : ℕ) :
    Image f ((r.trackSequence h).countPacket body n) ((r'.trackSequence h).countPacket body n) := by
  obtain ⟨ch, t, l, st⟩ := r
  obtain ⟨ch', t', l', st'⟩ := r'
  obtain ⟨hch, ht, hl, hs⟩ := hR
  dsimp only at hch ht hl hs
  subst ht hl hs
  exact ⟨hch, rfl, rfl, rfl⟩

theorem resetSequence (hR : Image f r r') : Image f r.resetSequence r'.resetSequence :=
  ⟨hR.channel, hR.timeoutMs, rfl, hR.stats⟩

end Image

end Reader

section Follows

variable {σ τ : Type} [DataChannel σ] [DataChannel τ]

/-- Channels of type `σ` follow channels of type `τ` through `f`, for reads with timeout `t`
from states where `P` holds: a read gives what the same read of the image gives, but that the
image's closing is reported as `e`, itself an end of data; the state after has the image's state
after as its image, and `P` still holds. -/
structure Follows (f : σ → τ) (P : σ → Prop) (t : ℕ) (e : LinkError) : Prop where
  ends : e = .connectionDropped ∨ ∃ t', e = .noResponse t'
  answer : ∀ a n, P a → (DataChannel.recv a n t).1 = endAs e (DataChannel.recv (f a) n t).1
  image : ∀ a n, P a → f (DataChannel.recv a n t).2 = (DataChannel.recv (f a) n t).2
  keeps : ∀ a n, P a → P (DataChannel.recv a n t).2

namespace Follows

variable {f : σ → τ} {P : σ → Prop} {t : ℕ} {e : LinkError}

/-- One read of a reader and of its image. -/
theorem recv (hf : Follows f P t e) {r : Reader σ} {r' : Reader τ} (hR : r.Image f r')
    (hP : P r.channel) (ht : r.timeoutMs = t) (n : ℕ) :
    ∃ res a, r.recv n = (endAs e res, { r with channel := a }) ∧
      r'.recv n = (res, { r' with channel := f a }) ∧ P a := by
  refine ⟨(DataChannel.recv (f r.channel) n t).1, (DataChannel.recv r.channel n t).2, ?_, ?_,
    hf.keeps _ _ hP⟩
  · rw [Reader.recv_eq, ← hf.answer _ _ hP, ht]
  · rw [Reader.recv_eq, hf.image _ _ hP, hR.channel, hR.timeoutMs, ht]

/-- A payload read that reports the end of data gives no payload, however the end is reported. -/
theorem payload_endAs (hf : Follows f P t e) (res : Except LinkError Bytes) :
    Reader.payloadOf (endAs e res) = Reader.payloadOf res := by
  rcases hf.ends with rfl | ⟨t', rfl⟩ <;> rcases res with err | bs <;> try cases err
  all_goals rfl

/-- What a payload read leaves once the end of data is taken as no payload: never the closing. -/
theorem payload_ne (res : Except LinkError Bytes) :
    Reader.payloadOf res ≠ .error .connectionDropped := by
  rcases res with err | bs
  · cases err <;> simp [Reader.payloadOf]
  · simp

/-- A reader reads from a channel what its image reads, but that the image's closing is reported
as `e`; the readers after are again a reader and its image. -/
theorem readPacket (hf : Follows f P t e) {r : Reader σ} {r' : Reader τ} (hR : r.Image f r')
    (hP : P r.channel) (ht : r.timeoutMs = t) :
    ∃ res s₁ s₂, r.readPacket = (endAs e res, s₁) ∧ r'.readPacket = (res, s₂) ∧
      s₁.Image f s₂ ∧ P s₁.channel ∧ s₁.timeoutMs = t := by
  unfold Reader.readPacket
  obtain ⟨res, a, hsim, hmem, hPa⟩ := hf.recv hR hP ht Header.size
  rw [hsim, hmem]
  have hR₁ := hR.withChannel (a := a) rfl
  cases res with
  | error err =>
    -- the header read failed
    exact ⟨.error err, _, _, rfl, rfl, hR₁, hPa, ht⟩
  | ok hb =>
  rw [endAs_ok]
  dsimp only
  by_cases hshort : hb.length < Header.size
  · rw [if_pos hshort, if_pos hshort]
    exact ⟨_, _, _, rfl, rfl, hR₁, hPa, ht⟩
  rw [if_neg hshort, if_neg hshort]
  cases hdec : Header.decode hb with
  | error err =>
    have hne := LinkError.ne_connectionDropped (Header.decode_error hdec)
    exact ⟨.error err, _, _, by rw [endAs_error_of_ne e hne], rfl, hR₁, hPa, ht⟩
  | ok h =>
  dsimp only
  obtain ⟨res₂, a₂, hsim₂, hmem₂, hPa₂⟩ :=
    hf.recv hR₁ hPa ht ((h.packetSize.toNat - Header.words) * 4)
  rw [hsim₂, hmem₂]
  dsimp only
  rw [hf.payload_endAs res₂]
  have hR₂ := hR₁.withChannel (a := a₂) rfl
  have hne := payload_ne res₂
  generalize Reader.payloadOf res₂ = pay at hne ⊢
  cases pay with
  | error err =>
    exact ⟨.error err, _, _, by rw [endAs_error_of_ne e fun h => hne (by rw [h])], rfl, hR₂, hPa₂,
      ht⟩
  | ok bs =>
  dsimp only
  by_cases hlong : bs.length < (h.packetSize.toNat - Header.words) * 4
  · rw [if_pos hlong, if_pos hlong]
    exact ⟨_, _, _, rfl, rfl, hR₂, hPa₂, ht⟩
  rw [if_neg hlong, if_neg hlong]
  cases hbody : decodeBody h bs with
  | error err =>
    have hne := LinkError.ne_connectionDropped (decodeBody_error hbody)
    exact ⟨.error err, _, _, by rw [endAs_error_of_ne e hne], rfl, hR₂, hPa₂, ht⟩
  | ok body => exact ⟨_, _, _, rfl, rfl, hR₂.count h body _, hPa₂, ht⟩

/-- One call on a reader and on its image: the same event, but for how the end is reported. -/
theorem perform (hf : Follows f P t e) {r : Reader σ} {r' : Reader τ} (hR : r.Image f r')
    (hP : P r.channel) (ht : r.timeoutMs = t) (op : ReadOp) :
    (r.perform op).1 = (r'.perform op).1.endAs e ∧ (r.perform op).2.Image f (r'.perform op).2 ∧
      P (r.perform op).2.channel ∧ (r.perform op).2.timeoutMs = t := by
  cases op with
  | read =>
    obtain ⟨res, s₁, s₂, hsim, hmem, hR₁, hP₁, ht₁⟩ := hf.readPacket hR hP ht
    simp only [Reader.perform, hsim, hmem]
    rcases res with err | q
    · exact ⟨rfl, hR₁, hP₁, ht₁⟩
    · exact ⟨rfl, hR₁, hP₁, ht₁⟩
  | reset => exact ⟨rfl, hR.resetSequence, hP, ht⟩

/-- Calls one after another on a reader and on its image: the same events, but for how the end
is reported, and again a reader and its image after the last. -/
theorem performAll (hf : Follows f P t e) :
    ∀ (ops : List ReadOp) {r : Reader σ} {r' : Reader τ}, r.Image f r' → P r.channel →
      r.timeoutMs = t →
      (r.performAll ops).1 = (r'.performAll ops).1.map (ReadEvent.endAs e) ∧
        (r.performAll ops).2.Image f (r'.performAll ops).2
  | [], _, _, hR, _, _ => ⟨rfl, hR⟩
  | op :: ops, r, r', hR, hP, ht => by
    obtain ⟨hev, hR₁, hP₁, ht₁⟩ := hf.perform hR hP ht op
    obtain ⟨hevs, hR₂⟩ := hf.performAll ops hR₁ hP₁ ht₁
    refine ⟨?_, hR₂⟩
    simp only [Reader.performAll, List.map_cons, hev, hevs]

end Follows

end Follows

end SweptSpectrum.Vrt

namespace SweptSpectrum.Instrument

open Vrt Wire

namespace Simulator

/-- The bytes the data channel still holds, in order: the rest of the chunk being read, then the
chunks not yet taken. -/
def stream (s : Simulator) : Bytes := s.pending ++ (s.queue.toList.drop s.head).flatten

/-- How the data channel reports that it holds nothing: closed once the instrument is gone,
and before that, that nothing came within the timeout. -/
def endOfData (dropped : Bool) (t : ℕ) : LinkError :=
  if dropped then .connectionDropped else .noResponse t

/-- The steps taking `k` more bytes can need: a take from the chunk being read and from each chunk
after it, never more than bytes are wanted, a step to load each chunk, and the last check. -/
def takeSteps (k : ℕ) (s : Simulator) : ℕ :=
  min k (min s.pending.length 1 + (s.queue.size - s.head)) + (s.queue.size - s.head) + 1

/-! ## The stream under each step of a read -/

theorem stream_load {s : Simulator} (hp : s.pending = []) (hh : s.head < s.queue.size) :
    stream { s with pending := s.queue.getD s.head [], head := s.head + 1 } = s.stream := by
  have hlen : s.head < s.queue.toList.length := by simpa using hh
  simp only [stream, hp, List.nil_append, Array.getD_eq_getD_getElem?,
    Array.getElem?_eq_getElem hh, Option.getD_some]
  rw [List.drop_eq_getElem_cons hlen, List.flatten_cons, Array.getElem_toList]

theorem stream_eq_nil {s : Simulator} (hp : s.pending = []) (hh : ¬s.head < s.queue.size) :
    s.stream = [] := by
  have hlen : s.queue.toList.length ≤ s.head := by simpa using hh
  simp [stream, hp, List.drop_eq_nil_of_le hlen]

/-- Taking from the chunk being read takes from the front of the stream. -/
theorem stream_take {s : Simulator} (k : ℕ) :
    stream { s with pending := s.pending.drop k } = s.stream.drop (min k s.pending.length) ∧
      s.pending.take k = s.stream.take (min k s.pending.length) := by
  have hzero : min k s.pending.length - s.pending.length = 0 := by omega
  have hpart : s.pending.drop (min k s.pending.length) = s.pending.drop k ∧
      s.pending.take (min k s.pending.length) = s.pending.take k := by
    by_cases hk : k ≤ s.pending.length
    · rw [Nat.min_eq_left hk]
      exact ⟨rfl, rfl⟩
    · rw [Nat.min_eq_right (by omega), List.drop_eq_nil_of_le (by omega),
        List.drop_eq_nil_of_le (by omega), List.take_length, List.take_of_length_le (by omega)]
      exact ⟨rfl, rfl⟩
  simp only [stream, List.drop_append, List.take_append, hzero, List.drop_zero, List.take_zero,
    List.append_nil, hpart]
  exact ⟨trivial, trivial⟩

/-! ## A read takes the front of the stream -/

/-- Taking bytes into `acc` until `n` are there: with nothing taken and nothing left, the end of
data; otherwise what `acc` held and as much of the stream as was missing, and the stream is left
without it. Only the rest of the chunk and the position in the queue change. -/
theorem takeBytes_spec (n t : ℕ) : ∀ (fuel : ℕ) (acc : Bytes) (s : Simulator),
    acc.length ≤ n → takeSteps (n - acc.length) s ≤ fuel →
    ∃ p h, takeBytes n t fuel acc s =
      (if acc = [] ∧ n ≠ 0 ∧ s.stream = [] then .error (endOfData s.dropped t)
        else .ok (acc ++ s.stream.take (n - acc.length)), { s with pending := p, head := h }) ∧
      stream { s with pending := p, head := h } = s.stream.drop (n - acc.length)
  | 0, acc, s, _, hfuel => by simp [takeSteps] at hfuel
  | fuel + 1, acc, s, hacc, hfuel => by
    rw [takeBytes]
    by_cases hfull : acc.length ≥ n
    · -- nothing is missing
      have hk : n - acc.length = 0 := by omega
      refine ⟨s.pending, s.head, ?_, by simp [hk]⟩
      rw [if_pos hfull, hk, List.take_zero, List.append_nil, if_neg]
      rintro ⟨rfl, hn, -⟩
      exact hn (by simpa using hfull)
    rw [if_neg hfull]
    split
    · -- the rest of the chunk gives what it can
      rename_i x xs hp
      have hplen : 0 < s.pending.length := by simp [hp]
      obtain ⟨hstream, htake⟩ := stream_take (s := s) (n - acc.length)
      have hlen : (acc ++ s.pending.take (n - acc.length)).length =
          acc.length + min (n - acc.length) s.pending.length := by simp
      obtain ⟨p, h, hrun, hrest⟩ := takeBytes_spec n t fuel (acc ++ s.pending.take (n - acc.length))
        { s with pending := s.pending.drop (n - acc.length) } (by omega) (by
          simp only [takeSteps, List.length_drop] at hfuel ⊢
          rw [hlen]
          omega)
      refine ⟨p, h, ?_, ?_⟩
      · rw [hrun, if_neg, if_neg]
        · congr 2
          rw [hlen, htake, List.append_assoc, hstream, ← List.take_add]
          congr 2
          omega
        · rintro ⟨-, -, hnil⟩
          simp [stream, hp] at hnil
        · rintro ⟨hnil, -⟩
          simp [hp] at hnil
          omega
      · rw [hrest, hlen, hstream, List.drop_drop]
        congr 1
        omega
    · -- the chunk is used up: load the next one, if any
      rename_i hp
      by_cases hh : s.head < s.queue.size
      · rw [if_pos hh]
        obtain ⟨p, h, hrun, hrest⟩ := takeBytes_spec n t fuel acc
          { s with pending := s.queue.getD s.head [], head := s.head + 1 } hacc (by
            simp only [takeSteps, hp, List.length_nil] at hfuel ⊢
            omega)
        dsimp only at hrun hrest
        rw [stream_load hp hh] at hrun hrest
        exact ⟨p, h, hrun, hrest⟩
      · rw [if_neg hh]
        have hnil := stream_eq_nil hp hh
        refine ⟨s.pending, s.head, ?_, by simp [hnil]⟩
        by_cases hempty : acc = []
        · subst hempty
          have hend : ([] : Bytes) = [] ∧ n ≠ 0 ∧ s.stream = [] := ⟨rfl, by simpa using hfull, hnil⟩
          rw [if_pos List.isEmpty_nil, if_pos hend]
          rfl
        · rw [if_neg (by simpa using hempty), if_neg (fun h => hempty h.1), hnil]
          simp

/-- A read of `n` bytes takes the first `n` bytes of the stream, as many as there are; asked for
bytes with none left, it reports the end of data. Only the data channel's position moves. -/
theorem recv_stream (s : Simulator) (n t : ℕ) :
    ∃ p h, DataChannel.recv s n t =
      (if n ≠ 0 ∧ s.stream = [] then .error (endOfData s.dropped t) else .ok (s.stream.take n),
        { s with pending := p, head := h }) ∧
      stream { s with pending := p, head := h } = s.stream.drop n := by
  -- the fuel a read is given covers every step it can take
  obtain ⟨p, h, hrun, hrest⟩ := takeBytes_spec n t (n + s.queue.size - s.head + 2) [] s
    (Nat.zero_le n) (by unfold takeSteps; omega)
  refine ⟨p, h, ?_, by simpa using hrest⟩
  show takeBytes n t (n + s.queue.size - s.head + 2) [] s = _
  rw [hrun]
  simp

/-- Reads of any lengths get consecutive pieces of the stream. -/
theorem recvAll_stream (t : ℕ) :
    ∀ (ns : List ℕ) (s : Simulator),
      (DataChannel.recvAll s t ns).1 = segments s.stream (endOfData s.dropped t) ns
  | [], _ => rfl
  | n :: ns, s => by
    obtain ⟨p, h, hrecv, hrest⟩ := recv_stream s n t
    simp only [DataChannel.recvAll, hrecv, segments]
    rw [recvAll_stream t ns, hrest]

/-- The data channel follows the memory channel over its stream, for reads from states whose
instrument stays as alive or as gone as it is, and it reports the end as `endOfData`. -/
theorem follows_memory (dropped : Bool) (t : ℕ) :
    Follows (fun s : Simulator => (⟨s.stream⟩ : MemoryChannel)) (fun s => s.dropped = dropped) t
      (endOfData dropped t) where
  ends := by
    cases dropped
    · exact .inr ⟨t, rfl⟩
    · exact .inl rfl
  answer s n hs := by
    obtain ⟨p, h, hrecv, -⟩ := recv_stream s n t
    rw [hrecv, MemoryChannel.recv_eq, hs]
    split_ifs <;> rfl
  image s n _ := by
    obtain ⟨p, h, hrecv, hrest⟩ := recv_stream s n t
    rw [hrecv, MemoryChannel.recv_eq]
    exact congrArg MemoryChannel.mk hrest
  keeps s n hs := by
    obtain ⟨p, h, hrecv, -⟩ := recv_stream s n t
    rw [hrecv]
    exact hs

end Simulator

open Simulator

/-- The simulator's data channel is a byte stream. Reads of any lengths get consecutive pieces of
the bytes it holds, each as long as asked or as what is left; a read of none gets none, and a
read with none left a timeout while the instrument lives and the closed channel once it is gone.
A reader over it makes the same reads as a reader over the same bytes in memory: every call gives
the same event, but that the end of the data may be reported as a timeout, so the same packets,
and the counters agree. -/
theorem simulator_reads_as_memory (s : Simulator) (t : ℕ) (ns : List ℕ) (ops : List ReadOp) :
    (DataChannel.recvAll s t ns).1 = segments s.stream (endOfData s.dropped t) ns ∧
      ((({ channel := s, timeoutMs := t } : Reader Simulator).performAll ops).1 =
          (({ channel := ⟨s.stream⟩, timeoutMs := t } : Reader MemoryChannel).performAll ops).1.map
            (ReadEvent.endAs (endOfData s.dropped t)) ∧
        ReadEvent.packetsIn (({ channel := s, timeoutMs := t } : Reader Simulator).performAll ops).1 =
          ReadEvent.packetsIn (({ channel := ⟨s.stream⟩, timeoutMs := t } : Reader MemoryChannel).performAll
            ops).1 ∧
        (({ channel := s, timeoutMs := t } : Reader Simulator).performAll ops).2.stats =
          (({ channel := ⟨s.stream⟩, timeoutMs := t } : Reader MemoryChannel).performAll
            ops).2.stats) := by
  have hR : Reader.Image (fun s : Simulator => (⟨s.stream⟩ : MemoryChannel))
      ({ channel := s, timeoutMs := t } : Reader Simulator)
      ({ channel := ⟨s.stream⟩, timeoutMs := t } : Reader MemoryChannel) := ⟨rfl, rfl, rfl, rfl⟩
  obtain ⟨hevents, himage⟩ := (follows_memory s.dropped t).performAll ops hR rfl rfl
  refine ⟨recvAll_stream t ns s, hevents, ?_, himage.stats.symm⟩
  rw [hevents, ReadEvent.packetsIn_map_endAs]

end SweptSpectrum.Instrument
