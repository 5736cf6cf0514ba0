import Mathlib.Data.List.Forall2
import SweptSpectrum.Proofs.Vrt.Streams

/-!
# Reading packets from a stream is decoding them from the bytes

A reader takes a packet from its channel in two reads, a header and then the payload the header
announces, while `Packet.decode` reads one packet from the front of a buffer. Over a channel that
holds bytes in memory the two agree at every point of the bytes: the reader returns what the
decoder returns, error for error, and on success moves the channel past exactly the bytes the
decoder used.

Decoding fails only with faults of the bytes (`LinkError.isFrameFault`), never with the closed
channel that ends a stream; and a header announces at least its own five words. So every byte
string splits into packets, each decoded whole, followed either by nothing or by a remainder that
does not decode (`Packet.exists_split`), and reading the whole stream returns those packets, or
the remainder's error.
-/

namespace SweptSpectrum.Vrt

open Wire

/-- Whether an error says that bytes are not a packet, rather than that a link failed. -/
def LinkError.isFrameFault : LinkError → Bool
  | .frameIncomplete .. | .unknownFrame _ | .invalidTimestamp _ | .formatViolation _ => true
  | _ => false

theorem LinkError.ne_connectionDropped {e : LinkError} (h : e.isFrameFault = true) :
    e ≠ .connectionDropped := by
  rintro rfl
  cases h

/-! ## What a decoder can return -/

/-- A decoder that fails only with faults of the bytes and returns only values with `P`. -/
structure Decoder.Yields {α : Type} (d : Decoder α) (P : α → Prop) : Prop where
  fault : ∀ c e, d c = .error e → e.isFrameFault = true
  value : ∀ c a c', d c = .ok (a, c') → P a

namespace Decoder.Yields

variable {α β : Type} {P : α → Prop} {Q : β → Prop}

theorem bind {d : Decoder α} {f : α → Decoder β} (hd : d.Yields P)
    (hf : ∀ a, P a → (f a).Yields Q) : (d >>= f).Yields Q := by
  -- the bind runs `d`, and on success `f` from the cursor `d` leaves
  have hrun (c : Cursor) : (d >>= f) c = (d c >>= fun p => f p.1 p.2) := rfl
  constructor
  · intro c e h
    rw [hrun] at h
    cases hdc : d c with
    | error e' =>
      rw [hdc] at h
      cases h
      exact hd.fault c _ hdc
    | ok p =>
      rw [hdc] at h
      exact (hf p.1 (hd.value c p.1 p.2 hdc)).fault p.2 e h
  · intro c b c' h
    rw [hrun] at h
    cases hdc : d c with
    | error e' =>
      rw [hdc] at h
      cases h
    | ok p =>
      rw [hdc] at h
      exact (hf p.1 (hd.value c p.1 p.2 hdc)).value p.2 b c' h

theorem pure {a : α} (h : P a) : (Pure.pure a : Decoder α).Yields P where
  fault _ _ h' := by cases h'
  value _ _ _ h' := by
    cases h'
    exact h

theorem map {d : Decoder α} (g : α → β) (hd : d.Yields P) (hg : ∀ a, P a → Q (g a)) :
    (g <$> d).Yields Q := by
  rw [map_eq_pure_bind]
  exact hd.bind fun a ha => pure (hg a ha)

theorem throw {e : LinkError} (he : e.isFrameFault = true) (P : α → Prop) :
    (MonadExcept.throw e : Decoder α).Yields P where
  fault _ _ h := by
    cases h
    exact he
  value _ _ _ h := by cases h

/-- A check that fails with a fault of the bytes, as a `do` block writes `if c then throw e`. -/
theorem ite_throw {c : Prop} [Decidable c] {e : LinkError} (he : e.isFrameFault = true)
    {f : PUnit → Decoder β} {g : Decoder β} (hg : ¬c → g.Yields Q) :
    (if c then MonadExcept.throw e >>= f else g).Yields Q := by
  by_cases hc : c
  · rw [if_pos hc]
    exact (throw he fun _ => False).bind fun _ h => h.elim
  · rw [if_neg hc]
    exact hg hc

theorem readIf {d : Decoder α} (present : Bool) (hd : d.Yields fun _ => True) :
    (readIf present d).Yields fun _ => True := by
  unfold SweptSpectrum.Vrt.readIf
  cases present
  · exact pure trivial
  · exact map some hd fun _ _ => trivial

/-- A decoder run from the start of a buffer fails only with a fault of the bytes. -/
theorem run'_error {d : Decoder α} (hd : d.Yields P) {buf : Bytes} {e : LinkError}
    (h : d.run' buf = .error e) : e.isFrameFault = true := by
  unfold Decoder.run' at h
  cases hrun : d.run (Cursor.start buf) with
  | error e' =>
    rw [hrun] at h
    cases h
    exact hd.fault _ _ hrun
  | ok p =>
    rw [hrun] at h
    cases h

theorem run'_ok {d : Decoder α} (hd : d.Yields P) {buf : Bytes} {a : α} (h : d.run' buf = .ok a) :
    P a := by
  unfold Decoder.run' at h
  cases hrun : d.run (Cursor.start buf) with
  | error e' =>
    rw [hrun] at h
    cases h
  | ok p =>
    rw [hrun] at h
    cases h
    exact hd.value _ _ _ hrun

end Decoder.Yields

theorem takeBytes_yields (w : Nat) : (takeBytes w).Yields fun bs => bs.length = w where
  fault c e h := by
    unfold takeBytes at h
    dsimp only at h
    split at h
    · cases h
    · cases h
      rfl
  value c a c' h := by
    unfold takeBytes at h
    dsimp only at h
    split at h
    · cases h
      assumption
    · cases h

theorem readWord_yields (w : Nat) : (readWord w).Yields fun _ => True :=
  (takeBytes_yields w).bind fun _ _ => .pure trivial

theorem readSigned_yields (w : Nat) : (readSigned w).Yields fun _ => True :=
  (readWord_yields w).bind fun _ _ => .pure trivial

/-- A decoded header announces at least the words its type needs, so at least its own five. -/
theorem Header.decoder_yields :
    Header.decoder.Yields fun h => Header.minimumWords h.packetType h.hasTrailer ≤ h.packetSize.toNat := by
  unfold Header.decoder
  refine (readWord_yields 4).bind fun word0 _ => (readWord_yields 4).bind fun raw _ => ?_
  dsimp only
  -- the type and the stream must be known, then each check fails with its own fault
  cases PacketType.ofCode? (word0 / 2 ^ 28) with
  | none => exact .throw rfl _
  | some type =>
  cases StreamId.ofValue? raw with
  | none => exact .throw rfl _
  | some stream =>
  dsimp only
  refine .ite_throw rfl fun _ => .ite_throw rfl fun _ => ?_
  refine (readWord_yields 4).bind fun seconds _ => (readWord_yields 8).bind fun rawPicos _ => ?_
  refine .ite_throw rfl fun _ => .ite_throw rfl fun hsize => .pure ?_
  have hlt : word0 % 2 ^ 16 < 2 ^ 16 := Nat.mod_lt _ (by decide)
  show _ ≤ (word0 % 2 ^ 16).toUInt16.toNat
  rw [Nat.toUInt16, UInt16.toNat_ofNat', Nat.mod_eq_of_lt hlt]
  exact Nat.le_of_not_lt hsize

theorem Header.words_le_minimumWords (t : PacketType) (tr : Bool) :
    Header.words ≤ Header.minimumWords t tr := by
  unfold Header.minimumWords
  omega

theorem Header.decode_error {buf : Bytes} {e : LinkError} (h : Header.decode buf = .error e) :
    e.isFrameFault = true :=
  Header.decoder_yields.run'_error h

theorem Header.words_le_of_decode {buf : Bytes} {h : Header} (hd : Header.decode buf = .ok h) :
    Header.words ≤ h.packetSize.toNat :=
  Nat.le_trans (Header.words_le_minimumWords _ _) (Header.decoder_yields.run'_ok hd)

/-! ## Bodies and packets fail only on their bytes -/

theorem ReceiverContext.decoder_yields : ReceiverContext.decoder.Yields fun _ => True := by
  unfold ReceiverContext.decoder
  refine (readWord_yields 4).bind fun ind _ => ?_
  refine (Decoder.Yields.readIf _ ((readSigned_yields 4).bind fun _ _ => .pure trivial)).bind
    fun _ _ => ?_
  refine (Decoder.Yields.readIf _ ((readSigned_yields 8).bind fun _ _ => .pure trivial)).bind
    fun _ _ => ?_
  refine (Decoder.Yields.readIf _ ((readSigned_yields 2).bind fun _ _ =>
    (readSigned_yields 2).bind fun _ _ => .pure trivial)).bind fun _ _ => ?_
  exact (Decoder.Yields.readIf _ ((readWord_yields 4).bind fun _ _ => .pure trivial)).bind
    fun _ _ => .pure trivial

theorem DigitizerContext.decoder_yields : DigitizerContext.decoder.Yields fun _ => True := by
  unfold DigitizerContext.decoder
  have hfreq : readFrequency.Yields fun _ => True :=
    (readSigned_yields 8).bind fun _ _ => .pure trivial
  refine (readWord_yields 4).bind fun ind _ => ?_
  refine (Decoder.Yields.readIf _ hfreq).bind fun _ _ => (Decoder.Yields.readIf _ hfreq).bind
    fun _ _ => ?_
  exact (Decoder.Yields.readIf _ ((readWord_yields 4).bind fun _ _ => .pure trivial)).bind
    fun _ _ => .pure trivial

theorem ExtensionContext.decoder_yields : ExtensionContext.decoder.Yields fun _ => True := by
  unfold ExtensionContext.decoder
  have hmarker : (do return (← readWord 4).toUInt32 : Decoder UInt32).Yields fun _ => True :=
    (readWord_yields 4).bind fun _ _ => .pure trivial
  exact (readWord_yields 4).bind fun _ _ => (Decoder.Yields.readIf _ hmarker).bind fun _ _ =>
    (Decoder.Yields.readIf _ hmarker).bind fun _ _ => .pure trivial

theorem decodeSamples_error {payload : Bytes} {t : SampleType} {e : LinkError}
    (h : decodeSamples payload t = .error e) : e.isFrameFault = true := by
  unfold decodeSamples at h
  split at h
  · cases h
    rfl
  · cases t <;> cases h

theorem decodeIfData_error {h : Header} {t : SampleType} {payload : Bytes} {e : LinkError}
    (hd : decodeIfData h t payload = .error e) : e.isFrameFault = true := by
  unfold decodeIfData at hd
  by_cases hneed : payload.length < h.payloadWords * 4 + (if h.hasTrailer then 4 else 0)
  · -- a payload shorter than its words and trailer is incomplete
    simp only [hneed, if_true, bind, Except.bind, throw, throwThe, MonadExceptOf.throw] at hd
    cases hd
    rfl
  · cases hs : decodeSamples (payload.take (h.payloadWords * 4)) t with
    | error e' =>
      simp only [hneed, if_false, hs, bind, Except.bind] at hd
      cases hd
      exact decodeSamples_error hs
    | ok s =>
      simp only [hneed, if_false, hs, bind, Except.bind, pure, Except.pure] at hd
      cases hd

theorem decodeBody_error {h : Header} {payload : Bytes} {e : LinkError}
    (hd : decodeBody h payload = .error e) : e.isFrameFault = true := by
  -- a context body fails where its decoder fails; a data body where its samples do
  have hmap {α : Type} {d : Decoder α} (hy : d.Yields fun _ => True) (g : α → Body)
      (hg : g <$> d.run' payload = .error e) : e.isFrameFault = true := by
    cases hrun : d.run' payload with
    | error e' =>
      rw [hrun] at hg
      cases hg
      exact hy.run'_error hrun
    | ok a =>
      rw [hrun] at hg
      cases hg
  unfold decodeBody at hd
  split at hd
  · exact hmap ReceiverContext.decoder_yields _ hd
  · exact hmap DigitizerContext.decoder_yields _ hd
  · exact hmap ExtensionContext.decoder_yields _ hd
  all_goals exact decodeIfData_error hd

/-! ## Decoding one packet -/

/-- The bytes of exactly one packet, as the decoder reads them. -/
def Packet.Whole (q : Packet) (bs : Bytes) : Prop := Packet.decode bs = .ok (q, bs.length)

/-- A successful decode, stage by stage: a header at the front, a size the buffer covers, and a
body in the rest of that size. -/
theorem Packet.decode_eq_ok_iff {buf : Bytes} {q : Packet} {n : Nat} :
    Packet.decode buf = .ok (q, n) ↔
      Header.size ≤ buf.length ∧ Header.decode (buf.take Header.size) = .ok q.header ∧
        n = q.header.packetSize.toNat * 4 ∧ n ≤ buf.length ∧
        decodeBody q.header ((buf.take n).drop Header.size) = .ok q.body := by
  refine ⟨Packet.decode_eq_ok, ?_⟩
  rintro ⟨hlen, hhead, rfl, hn, hbody⟩
  unfold Packet.decode
  simp only [bind, Except.bind, throw, throwThe, MonadExceptOf.throw, pure, Except.pure,
    if_neg (Nat.not_lt.mpr hlen), hhead, if_neg (Nat.not_lt.mpr hn), hbody]

theorem Packet.decode_error {buf : Bytes} {e : LinkError} (h : Packet.decode buf = .error e) :
    e.isFrameFault = true := by
  unfold Packet.decode at h
  simp only [bind, Except.bind, throw, throwThe, MonadExceptOf.throw, pure, Except.pure] at h
  split at h
  · cases h
    rfl
  split at h
  · cases h
    exact Header.decode_error ‹_›
  split at h
  · cases h
    rfl
  split at h
  · cases h
    exact decodeBody_error ‹_›
  · cases h

/-- A decoded packet takes at least a header's bytes. -/
theorem Packet.size_le_of_decode {buf : Bytes} {q : Packet} {n : Nat}
    (h : Packet.decode buf = .ok (q, n)) : Header.size ≤ n ∧ n ≤ buf.length := by
  obtain ⟨-, hhead, rfl, hn, -⟩ := Packet.decode_eq_ok h
  have := Header.words_le_of_decode hhead
  exact ⟨by unfold Header.size; omega, hn⟩

/-- Decoding reads no byte past the packet: the bytes it used decode alone, and so does the
packet followed by anything. -/
theorem Packet.whole_take {buf : Bytes} {q : Packet} {n : Nat}
    (h : Packet.decode buf = .ok (q, n)) : Packet.Whole q (buf.take n) := by
  obtain ⟨hlen, hhead, hn, hle, hbody⟩ := Packet.decode_eq_ok_iff.mp h
  have hsize : Header.size ≤ n := (Packet.size_le_of_decode h).1
  have hlength : (buf.take n).length = n := List.length_take_of_le hle
  rw [Packet.Whole, hlength, Packet.decode_eq_ok_iff, List.take_take, List.take_take,
    Nat.min_eq_left hsize, Nat.min_self, hlength]
  exact ⟨hsize, hhead, hn, Nat.le_refl n, hbody⟩

theorem Packet.Whole.decode_append {q : Packet} {bs : Bytes} (h : Packet.Whole q bs)
    (more : Bytes) : Packet.decode (bs ++ more) = .ok (q, bs.length) := by
  obtain ⟨hlen, hhead, hn, -, hbody⟩ := Packet.decode_eq_ok_iff.mp h
  rw [List.take_length] at hbody
  rw [Packet.decode_eq_ok_iff, List.take_append_of_le_length hlen, List.take_left]
  exact ⟨by simp only [List.length_append]; omega, hhead, hn, by simp, hbody⟩

/-! ## Reading one packet from memory -/

namespace Reader

/-- Reading a packet from memory holding `rest`, past its first byte, returns what decoding
`rest` returns; on success the channel moves past exactly the bytes decoding used, and the
reader counts the packet. -/
theorem readPacket_memory (r : Reader MemoryChannel) {rest : Bytes} (hch : r.channel = ⟨rest⟩)
    (hne : rest ≠ []) :
    r.readPacket.1 = (Packet.decode rest).map Prod.fst ∧
      ∀ q n, Packet.decode rest = .ok (q, n) →
        r.readPacket.2 = { r.accept q with channel := ⟨rest.drop n⟩ } := by
  have hsize : Header.size = 20 := rfl
  have hhd := recv_memory r hch Header.size (.inr hne)
  by_cases hshort : rest.length < Header.size
  · -- a short header is incomplete for both
    have hdec : Packet.decode rest = .error (.frameIncomplete Header.size rest.length) := by
      simp [Packet.decode, hshort, bind, Except.bind, throw, throwThe, MonadExceptOf.throw]
    have htake : (rest.take Header.size).length = rest.length := by
      rw [List.length_take]
      omega
    have hread : r.readPacket.1 = .error (.frameIncomplete Header.size rest.length) := by
      simp only [readPacket, hhd, htake, hshort, if_true]
    rw [hread, hdec]
    exact ⟨rfl, fun q n h => by cases h⟩
  have hlen : Header.size ≤ rest.length := Nat.le_of_not_lt hshort
  have htake : (rest.take Header.size).length = Header.size := List.length_take_of_le hlen
  cases hhead : Header.decode (rest.take Header.size) with
  | error e =>
    have hdec : Packet.decode rest = .error e := by
      simp [Packet.decode, hshort, hhead, bind, Except.bind]
    have hread : r.readPacket.1 = .error e := by
      simp only [readPacket, hhd, htake, Nat.lt_irrefl, if_false, hhead]
    rw [hread, hdec]
    exact ⟨rfl, fun q n h => by cases h⟩
  | ok h =>
    -- the payload is what the size field announces past the header
    have hwords := Header.words_le_of_decode hhead
    have htotal : Header.size + (h.packetSize.toNat - Header.words) * 4 = h.packetSize.toNat * 4 := by
      unfold Header.size
      omega
    have hbody : (rest.drop Header.size).take ((h.packetSize.toNat - Header.words) * 4) =
        (rest.take (h.packetSize.toNat * 4)).drop Header.size := by
      rw [List.drop_take, ← htotal, Nat.add_sub_cancel_left]
    simp only [readPacket, hhd, htake, Nat.lt_irrefl, if_false, hhead]
    by_cases hclosed : (h.packetSize.toNat - Header.words) * 4 ≠ 0 ∧ rest.drop Header.size = []
    · -- nothing follows the header: the closed channel gives an empty payload, incomplete for both
      obtain ⟨hlen0, hnil⟩ := hclosed
      have hrest : rest.length = Header.size := by
        have := congrArg List.length hnil
        simp only [List.length_drop, List.length_nil] at this
        omega
      have hdec : Packet.decode rest =
          .error (.frameIncomplete (h.packetSize.toNat * 4) rest.length) := by
        have hlong : rest.length < h.packetSize.toNat * 4 := by omega
        simp [Packet.decode, hshort, hhead, hlong, bind, Except.bind, throw, throwThe,
          MonadExceptOf.throw]
      rw [recv_memory_nil { r with channel := ⟨rest.drop Header.size⟩ } (by rw [hnil]) hlen0]
      simp only [payloadOf_connectionDropped, List.length_nil, Nat.add_zero,
        Nat.pos_of_ne_zero hlen0, if_true]
      rw [hdec, htotal, hrest]
      exact ⟨rfl, fun q n h => by cases h⟩
    have hopen : (h.packetSize.toNat - Header.words) * 4 = 0 ∨ rest.drop Header.size ≠ [] := by
      by_cases h0 : (h.packetSize.toNat - Header.words) * 4 = 0
      · exact .inl h0
      · exact .inr fun hn => hclosed ⟨h0, hn⟩
    rw [recv_memory { r with channel := ⟨rest.drop Header.size⟩ } rfl _ hopen]
    simp only [payloadOf_ok, List.length_take, List.length_drop]
    by_cases hlong : rest.length < h.packetSize.toNat * 4
    · -- a payload cut short is incomplete for both, counted from the start of the packet
      have hdec : Packet.decode rest =
          .error (.frameIncomplete (h.packetSize.toNat * 4) rest.length) := by
        simp [Packet.decode, hshort, hhead, hlong, bind, Except.bind, throw, throwThe,
          MonadExceptOf.throw]
      have hmin : min ((h.packetSize.toNat - Header.words) * 4) (rest.length - Header.size) <
          (h.packetSize.toNat - Header.words) * 4 := by omega
      have hreceived : Header.size +
          min ((h.packetSize.toNat - Header.words) * 4) (rest.length - Header.size) = rest.length := by
        omega
      rw [if_pos hmin, hdec, htotal, hreceived]
      exact ⟨rfl, fun q n h => by cases h⟩
    · have hmin : ¬min ((h.packetSize.toNat - Header.words) * 4) (rest.length - Header.size) <
          (h.packetSize.toNat - Header.words) * 4 := by omega
      rw [if_neg hmin, hbody]
      cases hb : decodeBody h ((rest.take (h.packetSize.toNat * 4)).drop Header.size) with
      | error e =>
        have hdec : Packet.decode rest = .error e := by
          simp [Packet.decode, hshort, hhead, hlong, hb, bind, Except.bind]
        rw [hdec]
        exact ⟨rfl, fun q n h => by cases h⟩
      | ok body =>
        have hdec : Packet.decode rest = .ok (⟨h, body⟩, h.packetSize.toNat * 4) := by
          simp [Packet.decode, hshort, hhead, hlong, hb, bind, Except.bind, pure, Except.pure]
        rw [hdec]
        refine ⟨rfl, fun q n hq => ?_⟩
        cases hq
        simp only [List.drop_drop, htotal]
        rfl

/-- From empty memory the reader gets the closed channel, and nothing changes. -/
theorem readPacket_nil (r : Reader MemoryChannel) (hch : r.channel = ⟨[]⟩) :
    r.readPacket = (.error .connectionDropped, r) := by
  simp only [readPacket, recv_memory_nil r hch (by decide : Header.size ≠ 0)]

/-- A read that does not close the stream is the next packet or error of the stream. -/
theorem next_of_ne {σ : Type} [DataChannel σ] {r r' : Reader σ} {res : Except LinkError Packet}
    (h : r.readPacket = (res, r')) (hres : res ≠ .error .connectionDropped) :
    r.next = (some res, r') := by
  unfold next
  rw [h]
  split
  · rename_i heq
    simp only [Prod.mk.injEq] at heq
    exact absurd heq.1 hres
  · rename_i heq
    cases heq
    rfl

end Reader

/-! ## Splitting a byte string into packets -/

/-- Where reading a stream stops, and with what error: at the end of the bytes, where the
channel is closed, or at a remainder that does not decode. -/
def Packet.StreamEnd (rest : Bytes) (e : LinkError) : Prop :=
  rest = [] ∧ e = .connectionDropped ∨ rest ≠ [] ∧ Packet.decode rest = .error e

/-- Every byte string is a run of packets, each decoded whole, up to where reading stops. -/
theorem Packet.exists_split (b : Bytes) :
    ∃ cs ps rest e, b = cs.flatten ++ rest ∧ List.Forall₂ Packet.Whole ps cs ∧
      Packet.StreamEnd rest e := by
  obtain ⟨n, hn⟩ : ∃ n, b.length = n := ⟨_, rfl⟩
  induction n using Nat.strongRecOn generalizing b with
  | ind n ih =>
  by_cases hb : b = []
  · exact ⟨[], [], [], .connectionDropped, by simp [hb], .nil, .inl ⟨rfl, rfl⟩⟩
  cases hdec : Packet.decode b with
  | error e => exact ⟨[], [], b, e, by simp, .nil, .inr ⟨hb, hdec⟩⟩
  | ok p =>
    obtain ⟨q, m⟩ := p
    -- the packet takes at least a header's bytes, so what follows it is shorter
    obtain ⟨hm, hle⟩ := Packet.size_le_of_decode hdec
    have hshorter : (b.drop m).length < n := by
      rw [List.length_drop, ← hn]
      unfold Header.size Header.words at hm
      omega
    obtain ⟨cs, ps, rest, e, hsplit, hwhole, hend⟩ := ih _ hshorter (b.drop m) rfl
    refine ⟨b.take m :: cs, q :: ps, rest, e, ?_, .cons (Packet.whole_take hdec) hwhole, hend⟩
    rw [List.flatten_cons, List.append_assoc, ← hsplit, List.take_append_drop]

namespace Reader

/-- Reading memory that holds whole packets and then where reading stops returns those packets
after the ones already read, or the error reading stops with, given more fuel than packets. -/
theorem readAllWith_split {ps : List Packet} {cs : List Bytes}
    (hwhole : List.Forall₂ Packet.Whole ps cs) {rest : Bytes} {e : LinkError}
    (hend : Packet.StreamEnd rest e) (r : Reader MemoryChannel)
    (hch : r.channel = ⟨cs.flatten ++ rest⟩) (fuel : Nat) (hfuel : cs.length < fuel)
    (acc : List Packet) :
    (r.readAllWith fuel acc).1 = if rest = [] then .ok (acc.reverse ++ ps) else .error e := by
  induction hwhole generalizing r fuel acc with
  | nil =>
    obtain ⟨fuel, rfl⟩ : ∃ f, fuel = f + 1 := ⟨fuel - 1, by simp at hfuel; omega⟩
    rw [List.flatten_nil, List.nil_append] at hch
    rcases hend with ⟨rfl, rfl⟩ | ⟨hne, hdec⟩
    · -- the closed channel ends the stream
      simp [readAllWith, next, readPacket_nil r hch]
    · -- the remainder's error is a fault of its bytes, so the stream does not just end there
      have hread : r.readPacket.1 = .error e := by
        rw [(readPacket_memory r hch hne).1, hdec]
        rfl
      have hfault := LinkError.ne_connectionDropped (Packet.decode_error hdec)
      have hnext : r.next = (some (.error e), r.readPacket.2) :=
        next_of_ne (by rw [← hread]) fun h => hfault (Except.error.inj h)
      simp only [readAllWith, hnext, if_neg hne]
  | @cons q bs ps cs hq _ ih =>
    obtain ⟨fuel, rfl⟩ : ∃ f, fuel = f + 1 := ⟨fuel - 1, by simp at hfuel; omega⟩
    have hread := readPacket_of_decode (by simpa using hch) hq
    simp only [readAllWith, next, hread]
    rw [ih _ rfl fuel (by simpa using hfuel)]
    simp only [List.reverse_cons, List.append_assoc, List.singleton_append]

/-- Reading all of memory that holds whole packets and then where reading stops returns those
packets, or the error reading stops with. -/
theorem readAll_split {ps : List Packet} {cs : List Bytes} (hwhole : List.Forall₂ Packet.Whole ps cs)
    {rest : Bytes} {e : LinkError} (hend : Packet.StreamEnd rest e) (r : Reader MemoryChannel)
    (hch : r.channel = ⟨cs.flatten ++ rest⟩) :
    r.readAll.1 = if rest = [] then .ok ps else .error e := by
  -- a packet takes at least one byte, so the bytes held bound the packets
  have hfuel : cs.length < DataChannel.pending r.channel + 1 := by
    have := length_le_length_flatten hwhole
    simp only [DataChannel.pending, hch, List.length_append]
    omega
  have h := readAllWith_split hwhole hend r hch _ hfuel []
  rwa [List.reverse_nil, List.nil_append] at h

end Reader

/-- Reading refines decoding. A reader over bytes held in memory, at any point of them, does
what decoding the rest does: with nothing left it finds the channel closed; otherwise it returns
the decoder's packet or error, and on success moves the channel past exactly the packet's size
in bytes and counts the packet. Reading the whole rest succeeds exactly when the rest is packets
each decoded whole, and returns them in order; otherwise it fails with the error of the first
remainder that does not decode. -/
theorem Reader.reading_refines_decoding (r : Reader MemoryChannel) (rest : Bytes)
    (hch : r.channel = ⟨rest⟩) :
    (rest = [] → r.readPacket = (.error .connectionDropped, r)) ∧
    (rest ≠ [] → r.readPacket.1 = (Packet.decode rest).map Prod.fst ∧
      ∀ q n, Packet.decode rest = .ok (q, n) → n = q.header.packetSize.toNat * 4 ∧
        r.readPacket.2 = { r.accept q with channel := ⟨rest.drop n⟩ }) ∧
    (∀ ps, r.readAll.1 = .ok ps ↔ ∃ cs, rest = cs.flatten ∧ List.Forall₂ Packet.Whole ps cs) ∧
    (∀ e, r.readAll.1 = .error e ↔ ∃ cs ps tail, rest = cs.flatten ++ tail ∧
      List.Forall₂ Packet.Whole ps cs ∧ tail ≠ [] ∧ Packet.decode tail = .error e) := by
  -- the one way the rest splits into whole packets and where reading stops
  obtain ⟨cs, ps, tail, e, hsplit, hwhole, hend⟩ := Packet.exists_split rest
  have hread := Reader.readAll_split hwhole hend r (hsplit ▸ hch)
  refine ⟨fun hnil => Reader.readPacket_nil r (hnil ▸ hch), fun hne => ?_, fun ps' => ?_,
    fun e' => ?_⟩
  · obtain ⟨hres, hstate⟩ := Reader.readPacket_memory r hch hne
    exact ⟨hres, fun q n hq => ⟨(Packet.decode_eq_ok hq).2.2.1, hstate q n hq⟩⟩
  · constructor
    · intro hok
      by_cases htail : tail = []
      · rw [if_pos htail] at hread
        rw [hread] at hok
        cases hok
        exact ⟨cs, by rw [hsplit, htail, List.append_nil], hwhole⟩
      · rw [if_neg htail, hok] at hread
        cases hread
    · rintro ⟨cs', hsplit', hwhole'⟩
      have h := Reader.readAll_split hwhole' (.inl ⟨rfl, rfl⟩) r (by rw [hch, hsplit', List.append_nil])
      rwa [if_pos rfl] at h
  · constructor
    · intro herr
      by_cases htail : tail = []
      · rw [if_pos htail, herr] at hread
        cases hread
      · rw [if_neg htail, herr] at hread
        cases hread
        rcases hend with ⟨hnil, -⟩ | ⟨-, hdec⟩
        · exact absurd hnil htail
        · exact ⟨cs, ps, tail, hsplit, hwhole, htail, hdec⟩
    · rintro ⟨cs', ps', tail', hsplit', hwhole', hne', hdec'⟩
      have h := Reader.readAll_split hwhole' (.inr ⟨hne', hdec'⟩) r (by rw [hch, hsplit'])
      rwa [if_neg hne'] at h

/-- An extension context packet of 28 bytes, a sweep start marker, followed by three stray
bytes: the packet decodes whole, and reading the stream then fails on the stray bytes, a header
short of 17 bytes. -/
theorem Reader.reading_refines_decoding_truncated :
    ({ channel := ⟨[0x50, 0x60, 0, 7, 0x90, 0, 0, 4, 0, 0, 0, 0, 0, 0, 0, 0, 0, 0, 0, 0,
        0, 0, 0, 1, 0, 0, 0, 7, 1, 2, 3]⟩, timeoutMs := 0 } : Reader MemoryChannel).readAll.1 =
      .error (.frameIncomplete 20 3) := by
  obtain ⟨-, -, -, herr⟩ := Reader.reading_refines_decoding _ _ rfl
  have hq : Packet.Whole ⟨⟨.extensionContext, 0, 7, .extension, false, ⟨0, 0⟩⟩,
      .extension ⟨1, some 7, none⟩⟩
      [0x50, 0x60, 0, 7, 0x90, 0, 0, 4, 0, 0, 0, 0, 0, 0, 0, 0, 0, 0, 0, 0, 0, 0, 0, 1, 0, 0, 0, 7] := by
    unfold Packet.Whole
    rfl
  exact (herr _).mpr ⟨[_], [_], [1, 2, 3], rfl, .cons hq .nil, by simp, rfl⟩

end SweptSpectrum.Vrt
