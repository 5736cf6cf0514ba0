import SweptSpectrum.Proofs.Vrt.Packets
import SweptSpectrum.Proofs.Double.Exact

/-!
# Re-encoding a decoded packet

The packet an encoding decodes to encodes to the same bytes. Decoding changes a packet only in
what its encoding already settled: the header takes the stream's packet type, the count modulo
16 and the size and trailer bit of the body, and a context body takes the indicator as written
and every value on its fixed-point grid. Each of these is a fixed point of the encoder. A value
read back from a field is an integer over a power of two, which the arithmetic scales back
without rounding; the one integer no binary64 number holds, the top of the 64-bit range, is the
saturated value, and saturates again. An indicator that already carries the bits of its fields
keeps them.
-/

namespace SweptSpectrum.Vrt

open Wire Double

/-! ## Fixed-point fields -/

theorem frequencyRadix_denotes : frequencyRadix.Denotes (2 ^ 20) :=
  ofNat_denotes_two_pow 20 (by norm_num)

theorem gainRadix_denotes : gainRadix.Denotes (2 ^ 7) := ofNat_denotes_two_pow 7 (by norm_num)

theorem temperatureRadix_denotes : temperatureRadix.Denotes (2 ^ 6) :=
  ofNat_denotes_two_pow 6 (by norm_num)

/-- A frequency read back from its field writes the same field. -/
theorem frequencyWord_quantizeFrequency (x : Double) :
    frequencyWord (quantizeFrequency x) = frequencyWord x := by
  unfold frequencyWord quantizeFrequency
  congr 1
  -- the field holds the conversion of the scaled value: a binary64 integer, or the top
  rcases toInt64_exact_or_top (x * frequencyRadix).round with htop | ⟨m, k, hm, hk, hn⟩
  · rw [htop]
    decide
  · have hrange := toInt64_mem (x * frequencyRadix).round
    exact toIntSat_round_div_mul frequencyRadix_denotes (by norm_num) hm hk hn hrange.1
      (by omega)

/-- A 16-bit fixed-point value read back from its field writes the same field, for a radix
that is a power of two. -/
theorem halfWordOf_quantizeHalf {radix : Double} {r : ℕ} (hR : radix.Denotes (2 ^ r))
    (hr : r ≤ 103) (x : Double) : halfWordOf radix (quantizeHalf radix x) = halfWordOf radix x := by
  unfold halfWordOf quantizeHalf
  congr 1
  -- every value of a 16-bit field is held exactly
  have hrange := toInt16_mem (x * radix).round
  have hsmall : ((x * radix).round.toInt16).natAbs < 2 ^ 53 := by omega
  exact toIntSat_round_div_mul hR hr hsmall (Nat.zero_le 971) (by rw [pow_zero, Nat.mul_one])
    hrange.1 (by omega)

/-- A frequency already on the grid, a whole number `n` of `2^-20` steps that a binary64 number
holds and the 64-bit field can carry, reads back as itself. -/
theorem quantizeFrequency_of_grid {x : Double} {n : ℤ} {m k : ℕ} (hm : m < 2 ^ 53)
    (hk : k ≤ 971) (hn : n.natAbs = m * 2 ^ k) (hlo : -2 ^ 63 ≤ n) (hhi : n < 2 ^ 63)
    (hx : x.Denotes (n / 2 ^ 20)) : (quantizeFrequency x).Denotes (n / 2 ^ 20) :=
  ofInt_toIntSat_div_of_grid frequencyRadix_denotes (by norm_num) hm hk hn hlo (by omega) hx

/-- A value already on the grid of a 16-bit field reads back as itself. -/
theorem quantizeHalf_of_grid {radix x : Double} {r : ℕ} (hR : radix.Denotes (2 ^ r))
    (hr : r ≤ 103) {n : ℤ} (hlo : -2 ^ 15 ≤ n) (hhi : n < 2 ^ 15) (hx : x.Denotes (n / 2 ^ r)) :
    (quantizeHalf radix x).Denotes (n / 2 ^ r) :=
  ofInt_toIntSat_div_of_grid hR hr (by omega) (Nat.zero_le 971)
    (by rw [pow_zero, Nat.mul_one] : n.natAbs = n.natAbs * 2 ^ 0) hlo (by omega) hx

/-! ## Indicator words -/

/-- A bit of an indicator after `withMask`: the presence flag inside the mask, the old bit
outside it. -/
theorem testBit_withMask_of_lt {indicator mask j : ℕ} (present : Bool) (hmask : mask < 2 ^ 32)
    (hj : j < 32) :
    (withMask indicator mask present).testBit j =
      if mask.testBit j then present else indicator.testBit j := by
  cases present
  · rw [withMask, if_neg Bool.false_ne_true, Nat.testBit_and, testBit_clearMask hmask]
    cases mask.testBit j <;> simp [hj]
  · rw [withMask, if_pos rfl, Nat.testBit_or]
    cases mask.testBit j <;> simp

/-- Two words agree when their 32 bits do. -/
theorem eq_of_testBit_lt_32 {a b : ℕ} (ha : a < 2 ^ 32) (hb : b < 2 ^ 32)
    (h : ∀ j < 32, a.testBit j = b.testBit j) : a = b := by
  apply Nat.eq_of_testBit_eq
  intro j
  by_cases hj : j < 32
  · exact h j hj
  · have h32 : 2 ^ 32 ≤ 2 ^ j := Nat.pow_le_pow_right (by decide) (by omega)
    rw [Nat.testBit_lt_two_pow (by omega), Nat.testBit_lt_two_pow (by omega)]

namespace ReceiverContext

theorem wireIndicator_normalize (c : ReceiverContext) :
    c.normalize.wireIndicator = c.wireIndicator := by
  have hw := (wireIndicator_fields c).1
  have hind : c.normalize.indicator.toNat = c.wireIndicator := UInt32.toNat_ofNat_of_lt' hw
  refine eq_of_testBit_lt_32 (wireIndicator_fields _).1 hw fun j hj => ?_
  conv_lhs => rw [wireIndicator, hind]
  -- the presence flags are the same, and setting a bit twice to one flag sets it once
  simp (disch := decide) only [wireIndicator, normalize, Option.isSome_map,
    testBit_withMask_of_lt _ _ hj]
  split_ifs <;> rfl

/-- A receiver context encodes with its gains given as a pair, both present or both absent. -/
theorem encode_of_gains (c : ReceiverContext) (gains : Option (Double × Double))
    (hig : c.ifGain = gains.map Prod.fst) (hrg : c.rfGain = gains.map Prod.snd) :
    c.encode = .ok (c.fieldBytes gains) := by
  rcases c with ⟨ind, rp, fr, ig, rg, tp⟩
  dsimp only at hig hrg
  subst hig hrg
  unfold encode fieldBytes
  cases gains <;> cases rp <;> cases fr <;> cases tp <;> rfl

/-- The fields a receiver context reads back as write the bytes the context wrote. -/
theorem encode_normalize {c : ReceiverContext} {bs : Bytes} (h : c.encode = .ok bs) :
    c.normalize.encode = .ok bs := by
  obtain ⟨gains, hig, hrg, rfl⟩ := encode_eq_ok h
  -- the gains read back as a pair too, each on its grid
  let quantized := gains.map fun g => (quantizeHalf gainRadix g.1, quantizeHalf gainRadix g.2)
  have hig' : c.normalize.ifGain = quantized.map Prod.fst := by
    simp only [normalize, hig, quantized, Option.map_map]
    rfl
  have hrg' : c.normalize.rfGain = quantized.map Prod.snd := by
    simp only [normalize, hrg, quantized, Option.map_map]
    rfl
  rw [encode_of_gains c.normalize quantized hig' hrg', fieldBytes, wireIndicator_normalize]
  simp only [fieldBytes, normalize, quantized, Option.elim_map,
    Function.comp_def, frequencyWord_quantizeFrequency,
    halfWordOf_quantizeHalf gainRadix_denotes (by norm_num : 7 ≤ 103),
    halfWordOf_quantizeHalf temperatureRadix_denotes (by norm_num : 6 ≤ 103)]

end ReceiverContext

namespace DigitizerContext

/-- The bandwidth bits of a digitizer indicator as a `withMask`: both bits set when present,
bit 29 alone cleared when absent. -/
theorem bandwidthBits_eq (indicator : ℕ) (present : Bool) :
    (if present then indicator ||| bandwidthMask else indicator &&& (2 ^ 32 - 1 - 0x20000000)) =
      withMask indicator (if present then bandwidthMask else 0x20000000) present := by
  cases present <;> rfl

theorem wireIndicator_normalize (c : DigitizerContext) :
    c.normalize.wireIndicator = c.wireIndicator := by
  have hw := (wireIndicator_fields c).1
  have hind : c.normalize.indicator.toNat = c.wireIndicator := UInt32.toNat_ofNat_of_lt' hw
  refine eq_of_testBit_lt_32 (wireIndicator_fields _).1 hw fun j hj => ?_
  conv_lhs => rw [wireIndicator, hind]
  simp only [wireIndicator, normalize, Option.isSome_map, bandwidthBits_eq]
  -- the bandwidth's mask depends on its presence, so that is fixed first
  cases c.bandwidth.isSome <;>
    simp (disch := decide) only [testBit_withMask_of_lt _ _ hj] <;>
    split_ifs <;> rfl

theorem encode_normalize (c : DigitizerContext) : c.normalize.encode = c.encode := by
  rw [encode_eq, encode_eq, fieldBytes, fieldBytes, wireIndicator_normalize]
  simp only [normalize, Option.elim_map, Function.comp_def, frequencyWord_quantizeFrequency,
    halfWordOf_quantizeHalf gainRadix_denotes (by norm_num : 7 ≤ 103)]

end DigitizerContext

namespace ExtensionContext

theorem wireIndicator_normalize (c : ExtensionContext) :
    c.normalize.wireIndicator = c.wireIndicator := by
  have hw := (wireIndicator_fields c).1
  have hind : c.normalize.indicator.toNat = c.wireIndicator := UInt32.toNat_ofNat_of_lt' hw
  refine eq_of_testBit_lt_32 (wireIndicator_fields _).1 hw fun j hj => ?_
  conv_lhs => rw [wireIndicator, hind]
  simp (disch := decide) only [wireIndicator, normalize, testBit_withMask_of_lt _ _ hj]
  split_ifs <;> rfl

theorem encode_normalize (c : ExtensionContext) : c.normalize.encode = c.encode := by
  rw [encode_eq, encode_eq, fieldBytes, fieldBytes, wireIndicator_normalize]
  rfl

end ExtensionContext

/-! ## Bodies, headers and packets -/

/-- A body and its normalized form encode to the same bytes. -/
theorem Body.encodeBody_normalize {s : StreamId} {b : Body} {r : Bytes × Bool}
    (h : encodeBody s b = .ok r) : encodeBody s b.normalize = .ok r := by
  cases b with
  | receiver c =>
    obtain ⟨bs, hc, hok⟩ := Except.bind_eq_ok.mp h
    exact Except.bind_eq_ok.mpr ⟨bs, ReceiverContext.encode_normalize hc, hok⟩
  | digitizer c =>
    show c.normalize.encode >>= _ = _
    rwa [DigitizerContext.encode_normalize]
  | extension c =>
    show c.normalize.encode >>= _ = _
    rwa [ExtensionContext.encode_normalize]
  | ifData d => exact h

/-- The header encoder reads the packet count modulo 16 only. -/
theorem Header.encode_countMod (h : Header) :
    { h with packetCount := (h.packetCount.toNat % 16).toUInt8 }.encode = h.encode := by
  have hcount : (h.packetCount.toNat % 16).toUInt8.toNat % 16 = h.packetCount.toNat % 16 := by
    simp only [Nat.toUInt8, UInt8.toNat_ofNat']
    omega
  simp only [Header.encode, Header.firstWord, hcount]

namespace Packet

/-- A packet normalized to any size field encodes to the bytes the packet encodes to: the
encoder sets the type, size and trailer bit itself, and reads the count modulo 16. -/
theorem encode_normalize {p : Packet} {bs : Bytes} (h : p.encode = .ok bs) (words : ℕ) :
    (p.normalize words).encode = .ok bs := by
  obtain ⟨body, hb, hbody, hwords, hhead, rfl⟩ := encode_eq_ok h
  have hhead' : { (p.normalize words).header with
      packetType := (p.normalize words).header.streamId.packetType
      packetSize := (Header.words + body.length / 4).toUInt16
      hasTrailer := p.body.hasTrailer }.encode = .ok hb := by
    rw [← hhead, ← Header.encode_countMod { p.header with
      packetType := p.header.streamId.packetType
      packetSize := (Header.words + body.length / 4).toUInt16
      hasTrailer := p.body.hasTrailer }]
    rfl
  unfold encode
  rw [Except.bind_eq_ok]
  refine ⟨(body, p.body.hasTrailer), Body.encodeBody_normalize hbody, ?_⟩
  simp only [bind, Except.bind, throw, throwThe, MonadExceptOf.throw]
  rw [if_neg (Nat.not_lt.mpr hwords)]
  dsimp only at hhead'
  rw [hhead']
  rfl

/-- A packet whose body fits its stream is a fixed point of decoding and re-encoding: its bytes
decode, taken whole, to the packet normalized to its wire form, and that packet encodes to the
same bytes. -/
theorem decode_encode_reencode {p : Packet} {bs : Bytes} (h : p.encode = .ok bs)
    (hfit : p.body.fitsStream p.header.streamId = true) :
    decode bs = .ok (p.normalize (bs.length / 4), bs.length) ∧
      (p.normalize (bs.length / 4)).encode = .ok bs := by
  refine ⟨?_, encode_normalize h _⟩
  simpa using decode_encode h hfit []

/-- A receiver context whose frequency and gains lie off their grids. -/
theorem decode_encode_reencode_receiver :
    let p : Packet :=
      ⟨{ packetType := .context, packetCount := 21, streamId := .receiver },
        .receiver
          { frequency := some 2400000000.3, ifGain := some 10.3, rfGain := some (-3.01),
            temperature := some 41.7 }⟩
    ∃ bs, p.encode = .ok bs ∧ p.body.fitsStream p.header.streamId = true ∧
      decode bs = .ok (p.normalize (bs.length / 4), bs.length) ∧
      (p.normalize (bs.length / 4)).encode = .ok bs := by
  intro p
  obtain ⟨bs, h⟩ : ∃ bs, p.encode = .ok bs := ⟨_, rfl⟩
  have hfit : p.body.fitsStream p.header.streamId = true := rfl
  exact ⟨bs, h, hfit, decode_encode_reencode h hfit⟩

end Packet

end SweptSpectrum.Vrt
