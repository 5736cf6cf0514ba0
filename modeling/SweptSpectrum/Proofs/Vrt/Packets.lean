import SweptSpectrum.Proofs.Vrt.Contexts

/-!
# Packets read back

The samples of a data packet come back exactly: each 16- or 32-bit sample is written as its
big-endian bytes and read back from them, and the I and Q samples of a pair encoding are
written alternately and split again. A whole packet whose body suits its stream decodes from
the front of any buffer that starts with its encoding, taking exactly those bytes.
-/

namespace SweptSpectrum.Vrt

open Wire

/-! ## Sample words -/

/-- Two disjoint bit fields: a value shifted above `i` bits, or-ed with one below. -/
theorem or_eq_add_of_lt (x y k : Nat) (hx : x % 2 ^ k = 0) (hy : y < 2 ^ k) :
    x ||| y = x + y := by
  have hdiv := Nat.div_add_mod x (2 ^ k)
  rw [hx, Nat.add_zero] at hdiv
  rw [← hdiv, ← Nat.two_pow_add_eq_or_of_lt hy]

theorem halfWord_of_bytes (u : UInt16) :
    ((u >>> 8).toUInt8.toUInt16 <<< 8 ||| u.toUInt8.toUInt16) = u := by
  apply UInt16.toNat_inj.mp
  have hlt := u.toNat_lt
  simp only [UInt16.toNat_or, UInt16.toNat_shiftLeft, UInt8.toNat_toUInt16, UInt16.toNat_toUInt8,
    UInt16.toNat_shiftRight, Nat.shiftRight_eq_div_pow, Nat.shiftLeft_eq,
    show (8 : UInt16).toNat % 16 = 8 from rfl]
  rw [Nat.mod_eq_of_lt (by omega : u.toNat / 2 ^ 8 % 2 ^ 8 * 2 ^ 8 < 2 ^ 16),
    or_eq_add_of_lt _ _ 8 (by omega) (Nat.mod_lt _ (by decide))]
  omega

theorem fullWord_of_bytes (u : UInt32) :
    ((u >>> 24).toUInt8.toUInt32 <<< 24 ||| (u >>> 16).toUInt8.toUInt32 <<< 16 |||
      (u >>> 8).toUInt8.toUInt32 <<< 8 ||| u.toUInt8.toUInt32) = u := by
  apply UInt32.toNat_inj.mp
  have hlt := u.toNat_lt
  simp only [UInt32.toNat_or, UInt32.toNat_shiftLeft, UInt8.toNat_toUInt32, UInt32.toNat_toUInt8,
    UInt32.toNat_shiftRight, Nat.shiftRight_eq_div_pow, Nat.shiftLeft_eq,
    show (24 : UInt32).toNat % 32 = 24 from rfl, show (16 : UInt32).toNat % 32 = 16 from rfl,
    show (8 : UInt32).toNat % 32 = 8 from rfl]
  -- each byte lands in its own eight bits, so the or-s are sums
  generalize ha : u.toNat / 2 ^ 24 % 2 ^ 8 = a
  generalize hb : u.toNat / 2 ^ 16 % 2 ^ 8 = b
  generalize hc : u.toNat / 2 ^ 8 % 2 ^ 8 = c
  rw [Nat.mod_eq_of_lt (by omega : a * 2 ^ 24 < 2 ^ 32), Nat.mod_eq_of_lt (by omega : b * 2 ^ 16 < 2 ^ 32),
    Nat.mod_eq_of_lt (by omega : c * 2 ^ 8 < 2 ^ 32),
    or_eq_add_of_lt (a * 2 ^ 24) (b * 2 ^ 16) 24 (by omega) (by omega),
    or_eq_add_of_lt (a * 2 ^ 24 + b * 2 ^ 16) (c * 2 ^ 8) 16 (by omega) (by omega),
    or_eq_add_of_lt _ _ 8 (by omega) (by omega)]
  omega

theorem halfWords_append (s : Int16) (rest : Bytes) :
    halfWords (halfWordBytes s ++ rest) = s :: halfWords rest := by
  simp only [halfWordBytes, List.cons_append, List.nil_append, halfWords, halfWord_of_bytes,
    Int16.toInt16_toUInt16]

theorem fullWords_append (s : Int32) (rest : Bytes) :
    fullWords (fullWordBytes s ++ rest) = s :: fullWords rest := by
  simp only [fullWordBytes, List.cons_append, List.nil_append, fullWords, fullWord_of_bytes,
    Int32.toInt32_toUInt32]

theorem halfWords_flatMap (v : List Int16) : halfWords (v.flatMap halfWordBytes) = v := by
  induction v with
  | nil => rfl
  | cons s v ih => rw [List.flatMap_cons, halfWords_append, ih]

theorem fullWords_flatMap (v : List Int32) : fullWords (v.flatMap fullWordBytes) = v := by
  induction v with
  | nil => rfl
  | cons s v ih => rw [List.flatMap_cons, fullWords_append, ih]

/-- I and Q samples written alternately split back into the two lists. -/
theorem unzipAlternate_halfWords (i q : List Int16) (hlen : i.length = q.length) :
    unzipAlternate (halfWords ((i.zip q).flatMap fun (a, b) => halfWordBytes a ++ halfWordBytes b)) =
      (i, q) := by
  induction i generalizing q with
  | nil => cases q <;> simp_all [halfWords, unzipAlternate]
  | cons a i ih =>
    cases q with
    | nil => simp at hlen
    | cons b q =>
      simp only [List.zip_cons_cons, List.flatMap_cons, List.append_assoc, halfWords_append,
        unzipAlternate]
      rw [ih q (by simpa using hlen)]

theorem length_flatMap_const {α : Type} (l : List α) (f : α → Bytes) (k : Nat)
    (hf : ∀ a, (f a).length = k) : (l.flatMap f).length = l.length * k := by
  induction l with
  | nil => simp
  | cons a l ih => simp [List.flatMap_cons, hf, ih, Nat.succ_mul, Nat.add_comm]

/-! ## Sample payloads -/

/-- Encoded samples fill whole words. -/
theorem encodeSamples_length {s : Samples} {bs : Bytes} (h : encodeSamples s = .ok bs) :
    bs.length % 4 = 0 := by
  cases s with
  | iq i q =>
    simp only [encodeSamples] at h
    split at h
    · cases h
    · cases h
      rw [length_flatMap_const _ _ 4 (fun _ => rfl)]
      omega
  | real16 v =>
    simp only [encodeSamples] at h
    split at h
    · cases h
    · cases h
      rw [length_flatMap_const _ _ 2 length_halfWordBytes]
      omega
  | real32 v =>
    cases h
    rw [length_flatMap_const _ _ 4 (fun _ => rfl)]
    omega

/-- Encoded samples decode back to themselves, with their encoding. -/
theorem decodeSamples_encodeSamples {s : Samples} {bs : Bytes} (h : encodeSamples s = .ok bs) :
    decodeSamples bs s.sampleType = .ok s := by
  have hlen := encodeSamples_length h
  unfold decodeSamples
  rw [if_neg (by omega)]
  cases s with
  | iq i q =>
    simp only [encodeSamples] at h
    split at h
    · cases h
    · cases h
      rename_i hiq
      simp only [Samples.sampleType, unzipAlternate_halfWords i q (Classical.not_not.mp hiq)]
  | real16 v =>
    simp only [encodeSamples] at h
    split at h
    · cases h
    · cases h
      simp only [Samples.sampleType, halfWords_flatMap]
  | real32 v =>
    cases h
    simp only [Samples.sampleType, fullWords_flatMap]

/-! ## Bodies -/

namespace Body

/-- Whether a stream's decoder reads the body as the kind it is: a context only on its own
stream. The encoder itself keeps a data body to the stream of its sample encoding. -/
def fitsStream : Body → StreamId → Bool
  | .receiver _, s => s == .receiver
  | .digitizer _, s => s == .digitizer
  | .extension _, s => s == .extension
  | .ifData _, _ => true

/-- The body its encoding reads back as. -/
def normalize : Body → Body
  | .receiver c => .receiver c.normalize
  | .digitizer c => .digitizer c.normalize
  | .extension c => .extension c.normalize
  | .ifData d => .ifData d

/-- Whether the body ends in a trailer word. -/
def hasTrailer : Body → Bool
  | .ifData d => d.trailer.isSome
  | _ => false

end Body

theorem Trailer.toWord_lt (t : Trailer) : t.toWord < 2 ^ 32 := by
  simp only [Trailer.toWord, Trailer.flagWord, Trailer.validBits, Trailer.lockBits,
    Trailer.inversionBits, Trailer.overRangeBits, Trailer.lossBits]
  split <;> split <;> split <;> split <;> split <;> omega

theorem StreamId.packetType_of_sampleType {s : StreamId} {t : SampleType}
    (h : s.sampleType? = some t) : s.packetType = .ifData := by
  cases s <;> first | rfl | cases h

/-- A data stream's payload is decoded as samples of the stream's encoding. -/
theorem decodeBody_of_sampleType {h : Header} {t : SampleType} (hs : h.streamId.sampleType? = some t)
    (payload : Bytes) : decodeBody h payload = decodeIfData h t payload := by
  unfold decodeBody
  split <;> simp_all [StreamId.sampleType?]

/-- What the body encoder returns: whole words, the body's trailer flag, and at least the
words the header decoder asks of the stream's packet type. -/
theorem encodeBody_eq_ok {s : StreamId} {b : Body} {body : Bytes} {tr : Bool}
    (h : encodeBody s b = .ok (body, tr)) :
    body.length % 4 = 0 ∧ tr = b.hasTrailer ∧ (tr = true → s.packetType = .ifData) ∧
      Header.minimumWords s.packetType tr ≤ Header.words + body.length / 4 := by
  -- a context body: an indicator word at least, and no trailer
  have context : ∀ {bs : Bytes}, bs.length % 4 = 0 → 4 ≤ bs.length →
      (Except.ok (bs, false) : Except LinkError (Bytes × Bool)) = .ok (body, tr) →
      b.hasTrailer = false → body.length % 4 = 0 ∧ tr = b.hasTrailer ∧
        (tr = true → s.packetType = .ifData) ∧
        Header.minimumWords s.packetType tr ≤ Header.words + body.length / 4 := by
    intro bs hmod hmin hok hb
    cases hok
    refine ⟨hmod, hb.symm, by simp, ?_⟩
    have hone : (if s.packetType = .ifData then 0 else 1) ≤ 1 := by split <;> omega
    simp only [Header.minimumWords, Header.words, Bool.false_eq_true, if_false]
    omega
  cases b with
  | receiver c =>
    obtain ⟨bs, hc, hok⟩ := Except.bind_eq_ok.mp h
    obtain ⟨gains, -, -, rfl⟩ := ReceiverContext.encode_eq_ok hc
    exact context (c.length_fieldBytes gains).1 (c.length_fieldBytes gains).2 hok rfl
  | digitizer c =>
    obtain ⟨bs, hc, hok⟩ := Except.bind_eq_ok.mp h
    rw [DigitizerContext.encode_eq, Except.ok.injEq] at hc
    subst hc
    exact context c.length_fieldBytes.1 c.length_fieldBytes.2 hok rfl
  | extension c =>
    obtain ⟨bs, hc, hok⟩ := Except.bind_eq_ok.mp h
    rw [ExtensionContext.encode_eq, Except.ok.injEq] at hc
    subst hc
    exact context c.length_fieldBytes.1 c.length_fieldBytes.2 hok rfl
  | ifData d =>
    -- samples of the stream's own encoding, then the trailer word if there is one
    simp only [encodeBody, bind, Except.bind, throw, throwThe, MonadExceptOf.throw] at h
    split at h
    · cases h
    rename_i hstream
    have hdata := StreamId.packetType_of_sampleType (Classical.not_not.mp hstream)
    split at h
    · cases h
    rename_i bytes hsamples
    have hmod := encodeSamples_length hsamples
    split at h <;> simp only [pure, Except.pure, Except.ok.injEq, Prod.mk.injEq] at h <;>
      obtain ⟨rfl, rfl⟩ := h
    · rename_i t ht
      refine ⟨?_, by simp [Body.hasTrailer, ht], fun _ => hdata, ?_⟩
      · simp only [List.length_append, length_beBytes]
        omega
      · simp only [Header.minimumWords, Header.words, hdata, List.length_append, length_beBytes]
        simp
        omega
    · rename_i ht
      refine ⟨hmod, by simp [Body.hasTrailer, ht], fun h => absurd h (by decide), ?_⟩
      simp [Header.minimumWords, Header.words, hdata]

/-- A body that fits its stream decodes from its encoding under any header of the stream with
the trailer bit and size the packet encoder writes. -/
theorem decodeBody_encodeBody {s : StreamId} {b : Body} {body : Bytes} {tr : Bool}
    (h : encodeBody s b = .ok (body, tr)) (hfit : b.fitsStream s = true) {hd : Header}
    (hs : hd.streamId = s) (htr : hd.hasTrailer = tr)
    (hsize : hd.packetSize.toNat = Header.words + body.length / 4) :
    decodeBody hd body = .ok b.normalize := by
  obtain ⟨hmod, -, -, -⟩ := encodeBody_eq_ok h
  cases b with
  | receiver c =>
    simp only [Body.fitsStream, beq_iff_eq] at hfit
    obtain ⟨bs, hc, hok⟩ := Except.bind_eq_ok.mp h
    simp only [pure, Except.pure, Except.ok.injEq, Prod.mk.injEq] at hok
    obtain ⟨rfl, rfl⟩ := hok
    simp only [decodeBody, hs, hfit]
    rw [← List.append_nil bs, (ReceiverContext.reads_decoder hc).run' []]
    rfl
  | digitizer c =>
    simp only [Body.fitsStream, beq_iff_eq] at hfit
    obtain ⟨bs, hc, hok⟩ := Except.bind_eq_ok.mp h
    simp only [pure, Except.pure, Except.ok.injEq, Prod.mk.injEq] at hok
    obtain ⟨rfl, rfl⟩ := hok
    simp only [decodeBody, hs, hfit]
    rw [← List.append_nil bs, (DigitizerContext.reads_decoder hc).run' []]
    rfl
  | extension c =>
    simp only [Body.fitsStream, beq_iff_eq] at hfit
    obtain ⟨bs, hc, hok⟩ := Except.bind_eq_ok.mp h
    simp only [pure, Except.pure, Except.ok.injEq, Prod.mk.injEq] at hok
    obtain ⟨rfl, rfl⟩ := hok
    simp only [decodeBody, hs, hfit]
    rw [← List.append_nil bs, (ExtensionContext.reads_decoder hc).run' []]
    rfl
  | ifData d =>
    simp only [encodeBody, bind, Except.bind, throw, throwThe, MonadExceptOf.throw] at h
    split at h
    · cases h
    rename_i hstream
    split at h
    · cases h
    rename_i bytes hsamples
    have hbytes := encodeSamples_length hsamples
    rw [decodeBody_of_sampleType (hs ▸ Classical.not_not.mp hstream)]
    -- the samples fill the payload words; the trailer word, if any, follows them
    split at h <;> simp only [pure, Except.pure, Except.ok.injEq, Prod.mk.injEq] at h <;>
      obtain ⟨rfl, rfl⟩ := h
    · rename_i t ht
      have hlen : Header.payloadWords hd * 4 = bytes.length := by
        simp only [Header.payloadWords, hsize, htr, List.length_append, length_beBytes,
          Header.words, if_true]
        omega
      have htake : (beBytes 4 t.toWord).take 4 = beBytes 4 t.toWord :=
        List.take_of_length_le (Nat.le_of_eq (length_beBytes 4 _))
      simp only [decodeIfData, hlen, htr, if_true, List.length_append, length_beBytes,
        Nat.lt_irrefl, if_false, List.take_left', List.drop_left', decodeSamples_encodeSamples hsamples,
        htake, beValue_beBytes, Nat.mod_eq_of_lt t.toWord_lt, Trailer.ofWord_toWord]
      rcases d with ⟨samples, trailer⟩
      cases ht
      rfl
    · rename_i ht
      have hlen : Header.payloadWords hd * 4 = bytes.length := by
        simp only [Header.payloadWords, hsize, htr, Header.words, Bool.false_eq_true, if_false]
        omega
      simp only [decodeIfData, hlen, htr, Bool.false_eq_true, if_false, Nat.add_zero, Nat.lt_irrefl,
        List.take_length, decodeSamples_encodeSamples hsamples]
      rcases d with ⟨samples, trailer⟩
      cases ht
      rfl

/-! ## Packets -/

namespace Packet

/-- The header an encoding of `words` words carries: the stream's own packet type, the count
modulo 16 and the body's trailer bit. -/
def wireHeader (p : Packet) (words : Nat) : Header :=
  { p.header with packetType := p.header.streamId.packetType
                  packetCount := (p.header.packetCount.toNat % 16).toUInt8
                  packetSize := words.toUInt16
                  hasTrailer := p.body.hasTrailer }

/-- The packet an encoding of `words` words decodes to. -/
def normalize (p : Packet) (words : Nat) : Packet := ⟨p.wireHeader words, p.body.normalize⟩

/-- What the packet encoder writes: the header with the size and trailer bit of the body, then
the body. -/
theorem encode_eq_ok {p : Packet} {bs : Bytes} (h : p.encode = .ok bs) :
    ∃ body hb, encodeBody p.header.streamId p.body = .ok (body, p.body.hasTrailer) ∧
      Header.words + body.length / 4 ≤ maxPacketWords ∧
      { p.header with packetType := p.header.streamId.packetType
                      packetSize := (Header.words + body.length / 4).toUInt16
                      hasTrailer := p.body.hasTrailer }.encode = .ok hb ∧
      bs = hb ++ body := by
  unfold encode at h
  obtain ⟨⟨body, tr⟩, hbody, h⟩ := Except.bind_eq_ok.mp h
  obtain ⟨-, rfl, -, -⟩ := encodeBody_eq_ok hbody
  simp only [bind, Except.bind, throw, throwThe, MonadExceptOf.throw] at h
  split at h
  · cases h
  rename_i hwords
  split at h
  · cases h
  rename_i hb hhead
  simp only [pure, Except.pure, Except.ok.injEq] at h
  exact ⟨body, hb, hbody, Nat.le_of_not_lt hwords, hhead, h.symm⟩

/-- A packet whose body fits its stream decodes from the front of any buffer that starts with
its encoding, and takes exactly the encoding. -/
theorem decode_encode {p : Packet} {bs : Bytes} (h : p.encode = .ok bs)
    (hfit : p.body.fitsStream p.header.streamId = true) (rest : Bytes) :
    decode (bs ++ rest) = .ok (p.normalize (bs.length / 4), bs.length) := by
  obtain ⟨body, hb, hbody, hwords, hhead, rfl⟩ := encode_eq_ok h
  obtain ⟨hmod, -, htrailer, hmin⟩ := encodeBody_eq_ok hbody
  have hlen := Header.length_encode hhead
  have hsize : (Header.words + body.length / 4).toUInt16.toNat = Header.words + body.length / 4 :=
    UInt16.toNat_ofNat_of_lt' (by
      have : UInt16.size = 65536 := rfl
      simp only [maxPacketWords] at hwords
      omega)
  have hheader : Header.decode hb = .ok (p.wireHeader (Header.words + body.length / 4)) := by
    have hreads := (Header.reads_decoder hhead rfl htrailer (by simpa only [hsize] using hmin)).run' []
    rwa [List.append_nil] at hreads
  have htake : (hb ++ body ++ rest).take Header.size = hb := by
    rw [List.append_assoc, List.take_left' hlen]
  have htotal : (p.wireHeader (Header.words + body.length / 4)).packetSize.toNat * 4 =
      (hb ++ body).length := by
    simp only [wireHeader, hsize, List.length_append, hlen]
    simp only [Header.size, Header.words]
    omega
  have hpayload : ((hb ++ body ++ rest).take (hb ++ body).length).drop Header.size = body := by
    rw [List.take_left, List.drop_left' hlen]
  have hbodyDecode : decodeBody (p.wireHeader (Header.words + body.length / 4)) body =
      .ok p.body.normalize :=
    decodeBody_encodeBody hbody hfit rfl rfl hsize
  have hshort : ¬ (hb ++ body ++ rest).length < Header.size := by
    simp only [List.length_append, hlen]
    omega
  have hfull : ¬ (hb ++ body ++ rest).length < (hb ++ body).length := by
    simp only [List.length_append]
    omega
  simp only [decode, bind, Except.bind, pure, Except.pure, hshort, if_false, htake, hheader, htotal,
    hfull, hpayload, hbodyDecode]
  have hwordsOf : (hb ++ body).length / 4 = Header.words + body.length / 4 := by
    simp only [List.length_append, hlen, Header.size, Header.words]
    omega
  rw [hwordsOf]
  rfl

end Packet

end SweptSpectrum.Vrt
