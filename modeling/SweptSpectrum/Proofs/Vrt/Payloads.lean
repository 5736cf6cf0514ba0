import SweptSpectrum.Proofs.Vrt.Packets

/-!
# Sample payloads and sample lists correspond one to one

Under each sample encoding, a payload of whole words decodes to samples of that encoding, as
many as its words hold, and those samples encode back to the same bytes; a payload that ends in
a broken word is refused. Samples that fill whole words (I and Q of one length, an even count
of 16-bit real samples) are exactly those the encoder accepts, and they decode back from their
encoding. A data body decoded under a header holds the samples the header's size announces, and
a trailer exactly when the header says so.
-/

namespace SweptSpectrum.Vrt

open Wire

/-! ## Sample words -/

/-- Two bytes read as a 16-bit sample are written back as the same two bytes. -/
theorem halfWordBytes_of_bytes (a b : UInt8) :
    halfWordBytes ((a.toUInt16 <<< 8 ||| b.toUInt16).toInt16) = [a, b] := by
  have ha := a.toNat_lt
  have hb := b.toNat_lt
  -- the high byte lands above the low one, so the word is `a * 2^8 + b`
  have hword : (a.toUInt16 <<< 8 ||| b.toUInt16).toNat = a.toNat * 2 ^ 8 + b.toNat := by
    simp only [UInt16.toNat_or, UInt16.toNat_shiftLeft, UInt8.toNat_toUInt16, Nat.shiftLeft_eq,
      show (8 : UInt16).toNat % 16 = 8 from rfl]
    rw [Nat.mod_eq_of_lt (by omega), or_eq_add_of_lt _ _ 8 (by omega) (by omega)]
  simp only [halfWordBytes, UInt16.toUInt16_toInt16, List.cons.injEq, and_true]
  constructor
  · apply UInt8.toNat_inj.mp
    simp only [UInt16.toNat_toUInt8, UInt16.toNat_shiftRight, hword, Nat.shiftRight_eq_div_pow,
      show (8 : UInt16).toNat % 16 = 8 from rfl]
    omega
  · apply UInt8.toNat_inj.mp
    simp only [UInt16.toNat_toUInt8, hword]
    omega

/-- Four bytes read as a 32-bit sample are written back as the same four bytes. -/
theorem fullWordBytes_of_bytes (a b c d : UInt8) :
    fullWordBytes ((a.toUInt32 <<< 24) ||| (b.toUInt32 <<< 16) ||| (c.toUInt32 <<< 8) |||
      d.toUInt32).toInt32 = [a, b, c, d] := by
  have ha := a.toNat_lt
  have hb := b.toNat_lt
  have hc := c.toNat_lt
  have hd := d.toNat_lt
  -- each byte lands in its own eight bits, so the word is their weighted sum
  have hword : ((a.toUInt32 <<< 24) ||| (b.toUInt32 <<< 16) ||| (c.toUInt32 <<< 8) |||
      d.toUInt32).toNat = a.toNat * 2 ^ 24 + b.toNat * 2 ^ 16 + c.toNat * 2 ^ 8 + d.toNat := by
    simp only [UInt32.toNat_or, UInt32.toNat_shiftLeft, UInt8.toNat_toUInt32, Nat.shiftLeft_eq,
      show (24 : UInt32).toNat % 32 = 24 from rfl, show (16 : UInt32).toNat % 32 = 16 from rfl,
      show (8 : UInt32).toNat % 32 = 8 from rfl]
    rw [Nat.mod_eq_of_lt (by omega : a.toNat * 2 ^ 24 < 2 ^ 32),
      Nat.mod_eq_of_lt (by omega : b.toNat * 2 ^ 16 < 2 ^ 32),
      Nat.mod_eq_of_lt (by omega : c.toNat * 2 ^ 8 < 2 ^ 32),
      or_eq_add_of_lt (a.toNat * 2 ^ 24) (b.toNat * 2 ^ 16) 24 (by omega) (by omega),
      or_eq_add_of_lt (a.toNat * 2 ^ 24 + b.toNat * 2 ^ 16) (c.toNat * 2 ^ 8) 16 (by omega)
        (by omega),
      or_eq_add_of_lt _ _ 8 (by omega) (by omega)]
  simp only [fullWordBytes, UInt32.toUInt32_toInt32, List.cons.injEq, and_true]
  refine ⟨?_, ?_, ?_, ?_⟩ <;> apply UInt8.toNat_inj.mp <;>
    simp only [UInt32.toNat_toUInt8, UInt32.toNat_shiftRight, hword, Nat.shiftRight_eq_div_pow,
      show (24 : UInt32).toNat % 32 = 24 from rfl, show (16 : UInt32).toNat % 32 = 16 from rfl,
      show (8 : UInt32).toNat % 32 = 8 from rfl] <;> omega

theorem length_halfWords (p : Bytes) : (halfWords p).length = p.length / 2 := by
  fun_induction halfWords p with
  | case1 a b rest ih =>
    simp only [List.length_cons, ih]
    omega
  | case2 t hshort =>
    -- what is left is shorter than two bytes
    match t, hshort with
    | [], _ | [_], _ => simp
    | a :: b :: rest, hshort => exact (hshort a b rest rfl).elim

/-- Bytes of an even count are the bytes of the 16-bit samples read from them. -/
theorem flatMap_halfWords {p : Bytes} (h : p.length % 2 = 0) :
    (halfWords p).flatMap halfWordBytes = p := by
  fun_induction halfWords p with
  | case1 a b rest ih =>
    simp only [List.length_cons] at h
    rw [List.flatMap_cons, ih (by omega), halfWordBytes_of_bytes]
    rfl
  | case2 t hshort =>
    match t, hshort with
    | [], _ => rfl
    | [_], _ => simp at h
    | a :: b :: rest, hshort => exact (hshort a b rest rfl).elim

theorem length_fullWords (p : Bytes) : (fullWords p).length = p.length / 4 := by
  fun_induction fullWords p with
  | case1 a b c d rest ih =>
    simp only [List.length_cons, ih]
    omega
  | case2 t hshort =>
    match t, hshort with
    | [], _ | [_], _ | [_, _], _ | [_, _, _], _ => simp
    | a :: b :: c :: d :: rest, hshort => exact (hshort a b c d rest rfl).elim

/-- Bytes of whole words are the bytes of the 32-bit samples read from them. -/
theorem flatMap_fullWords {p : Bytes} (h : p.length % 4 = 0) :
    (fullWords p).flatMap fullWordBytes = p := by
  fun_induction fullWords p with
  | case1 a b c d rest ih =>
    simp only [List.length_cons] at h
    rw [List.flatMap_cons, ih (by omega), fullWordBytes_of_bytes]
    rfl
  | case2 t hshort =>
    match t, hshort with
    | [], _ => rfl
    | [_], _ | [_, _], _ | [_, _, _], _ => simp at h
    | a :: b :: c :: d :: rest, hshort => exact (hshort a b c d rest rfl).elim

/-- A list of even length splits alternately into two halves of one length, and writing the
pairs back one after the other gives the list again. -/
theorem unzipAlternate_even {α : Type} {l : List α} (h : l.length % 2 = 0) :
    (unzipAlternate l).1.length = l.length / 2 ∧ (unzipAlternate l).2.length = l.length / 2 ∧
      ∀ f : α → Bytes, ((unzipAlternate l).1.zip (unzipAlternate l).2).flatMap
        (fun (a, b) => f a ++ f b) = l.flatMap f := by
  fun_induction unzipAlternate l with
  | case1 a b rest xs ys hsplit ih =>
    simp only [List.length_cons] at h
    rw [hsplit] at ih
    obtain ⟨hxs, hys, hf⟩ := ih (by omega)
    refine ⟨?_, ?_, fun f => ?_⟩
    · simp only [List.length_cons, hxs]
      omega
    · simp only [List.length_cons, hys]
      omega
    · simp only [List.zip_cons_cons, List.flatMap_cons, ← hf f, List.append_assoc]
  | case2 a => simp at h
  | case3 => simp

/-! ## Payloads -/

/-- Whether samples fill whole words: I and Q of one length, an even count of 16-bit real
samples; 32-bit samples always do. -/
def Samples.fillsWords : Samples → Bool
  | .iq i q => i.length == q.length
  | .real16 v => v.length % 2 == 0
  | .real32 _ => true

/-- The encoder accepts exactly the samples that fill whole words. -/
theorem encodeSamples_isOk_iff (s : Samples) :
    (∃ bs, encodeSamples s = .ok bs) ↔ s.fillsWords = true := by
  cases s with
  | iq i q =>
    by_cases h : i.length = q.length <;> simp [encodeSamples, Samples.fillsWords, h]
  | real16 v =>
    by_cases h : v.length % 2 = 0 <;> simp [encodeSamples, Samples.fillsWords, h]
  | real32 v => simp [encodeSamples, Samples.fillsWords]

theorem decodeSamples_unaligned {p : Bytes} (t : SampleType) (h : p.length % 4 ≠ 0) :
    decodeSamples p t = .error (.formatViolation (.unalignedSamples p.length)) := by
  simp [decodeSamples, h]

theorem decodeSamples_aligned {p : Bytes} (t : SampleType) (h : p.length % 4 = 0) :
    ∃ s, decodeSamples p t = .ok s := by
  cases t <;> simp [decodeSamples, h]

/-- Decoded samples have the payload's encoding, as many samples as its words hold, and encode
back to the payload byte for byte. -/
theorem decodeSamples_eq_ok {p : Bytes} {t : SampleType} {s : Samples}
    (h : decodeSamples p t = .ok s) :
    p.length % 4 = 0 ∧ s.sampleType = t ∧ s.length = p.length / 4 * t.perWord ∧
      encodeSamples s = .ok p := by
  unfold decodeSamples at h
  split at h
  · cases h
  rename_i haligned
  have hmod : p.length % 4 = 0 := Classical.not_not.mp haligned
  have heven : p.length % 2 = 0 := by omega
  refine ⟨hmod, ?_⟩
  cases t with
  | i16q16 =>
    -- a word holds an I and a Q sample, split alternately
    obtain ⟨hi, hq, hf⟩ := unzipAlternate_even (l := halfWords p) (by rw [length_halfWords]; omega)
    cases h
    refine ⟨rfl, ?_, ?_⟩
    · simp only [Samples.length, hi, length_halfWords, SampleType.perWord]
      omega
    · simp only [encodeSamples, hi, hq, ne_eq, not_true_eq_false, if_false, hf,
        flatMap_halfWords heven]
  | i16 =>
    -- a word holds two real samples, so their count is even
    cases h
    refine ⟨rfl, ?_, ?_⟩
    · simp only [Samples.length, length_halfWords, SampleType.perWord]
      omega
    · have hcount : (halfWords p).length % 2 = 0 := by
        rw [length_halfWords]
        omega
      simp only [encodeSamples, hcount, ne_eq, not_true_eq_false, if_false, flatMap_halfWords heven]
  | i32 =>
    cases h
    refine ⟨rfl, ?_, ?_⟩
    · simp only [Samples.length, length_fullWords, SampleType.perWord, Nat.mul_one]
    · simp only [encodeSamples, flatMap_fullWords hmod]

/-! ## Data bodies -/

/-- What a decoded data body is made of: the samples of the payload's first words, a payload
long enough for them, and a trailer exactly when the header announces one. -/
theorem decodeIfData_eq_ok {h : Header} {t : SampleType} {payload : Bytes} {b : Body}
    (hd : decodeIfData h t payload = .ok b) :
    ∃ s tr, decodeSamples (payload.take (h.payloadWords * 4)) t = .ok s ∧
      h.payloadWords * 4 ≤ payload.length ∧ tr.isSome = h.hasTrailer ∧ b = .ifData ⟨s, tr⟩ := by
  unfold decodeIfData at hd
  by_cases hneed : payload.length < h.payloadWords * 4 + (if h.hasTrailer then 4 else 0)
  · simp [hneed, bind, Except.bind, throw, throwThe, MonadExceptOf.throw] at hd
  · cases hs : decodeSamples (payload.take (h.payloadWords * 4)) t with
    | error e =>
      simp only [hneed, if_false, hs, bind, Except.bind] at hd
      cases hd
    | ok s =>
      simp only [hneed, if_false, hs, bind, Except.bind, pure, Except.pure, Except.ok.injEq] at hd
      refine ⟨s, _, rfl, by split at hneed <;> omega, by cases h.hasTrailer <;> rfl, hd.symm⟩

/-- A data body decoded under a header holds as many samples as the header's size announces,
and a trailer exactly when the header has one. -/
theorem decodeBody_ifData {h : Header} {payload : Bytes} {d : IfData}
    (hd : decodeBody h payload = .ok (.ifData d)) :
    d.samples.length = h.samplesPerPacket ∧ d.trailer.isSome = h.hasTrailer := by
  cases hs : h.streamId.sampleType? with
  | none =>
    -- a context stream decodes to a context body
    have hmap {α : Type} (g : α → Body) (hg : ∀ a, g a ≠ .ifData d) (x : Except LinkError α) :
        g <$> x ≠ .ok (.ifData d) := by
      cases x with
      | error e => intro h; cases h
      | ok a => intro h; exact hg a (Except.ok.inj h)
    unfold decodeBody at hd
    split at hd
    · exact (hmap _ (fun _ => Body.noConfusion) _ hd).elim
    · exact (hmap _ (fun _ => Body.noConfusion) _ hd).elim
    · exact (hmap _ (fun _ => Body.noConfusion) _ hd).elim
    all_goals simp_all [StreamId.sampleType?]
  | some t =>
    rw [decodeBody_of_sampleType hs] at hd
    obtain ⟨s, tr, hsamples, hlen, htr, hb⟩ := decodeIfData_eq_ok hd
    cases hb
    obtain ⟨-, -, hcount, -⟩ := decodeSamples_eq_ok hsamples
    refine ⟨?_, htr⟩
    rw [hcount, List.length_take, Nat.min_eq_left hlen, Header.samplesPerPacket, hs,
      Nat.mul_div_cancel _ (by decide)]

/-- Sample payloads and sample lists correspond one to one. Under every encoding, a payload
that is not whole words is refused as unaligned; a payload of whole words decodes to samples of
that encoding, as many as its words hold, which encode back to the payload byte for byte. The
encoder accepts exactly the samples that fill whole words, and those decode back from their
encoding. A data body decoded under any header holds as many samples as the header's size
announces, and a trailer exactly when the header has one. -/
theorem samplePayload_roundTrips :
    (∀ (t : SampleType) (p : Bytes), p.length % 4 ≠ 0 →
      decodeSamples p t = .error (.formatViolation (.unalignedSamples p.length))) ∧
    (∀ (t : SampleType) (p : Bytes), p.length % 4 = 0 →
      ∃ s, decodeSamples p t = .ok s ∧ s.sampleType = t ∧ s.length = p.length / 4 * t.perWord ∧
        encodeSamples s = .ok p) ∧
    (∀ s : Samples, (∃ bs, encodeSamples s = .ok bs) ↔ s.fillsWords = true) ∧
    (∀ (s : Samples) (bs : Bytes), encodeSamples s = .ok bs →
      decodeSamples bs s.sampleType = .ok s) ∧
    (∀ (h : Header) (payload : Bytes) (d : IfData), decodeBody h payload = .ok (.ifData d) →
      d.samples.length = h.samplesPerPacket ∧ d.trailer.isSome = h.hasTrailer) := by
  refine ⟨fun t _ h => decodeSamples_unaligned t h, fun t p h => ?_, encodeSamples_isOk_iff,
    fun _ _ h => decodeSamples_encodeSamples h, fun _ _ _ h => decodeBody_ifData h⟩
  obtain ⟨s, hs⟩ := decodeSamples_aligned t h
  obtain ⟨-, htype, hlen, henc⟩ := decodeSamples_eq_ok hs
  exact ⟨s, hs, htype, hlen, henc⟩

/-- Two words of 16-bit real samples, the extremes among them. -/
example : decodeSamples [0x00, 0x01, 0xff, 0xff, 0x7f, 0xff, 0x80, 0x00] .i16 =
    .ok (.real16 [1, -1, 32767, -32768]) := rfl

end SweptSpectrum.Vrt
