import SweptSpectrum.Proofs.Vrt.Decoding
import SweptSpectrum.Proofs.Double.Conversions
import SweptSpectrum.Proofs.Except

/-!
# Context bodies read back

A context body reads back as the context its encoder was given, normalised: the indicator has
the bits of each field set exactly when the field is present (the digitizer bandwidth clears
only bit 29 of its two bits when absent, as bit 31 is also the context-change flag), and every
value is the one its fixed-point field holds. `quantizeFrequency` and `quantizeHalf` are those
values: the nearest whole number of steps, saturated at the ends of the field, over the radix.
-/

namespace SweptSpectrum.Vrt

open Wire

/-! ## Fixed-point fields -/

/-- A frequency as its 64-bit field holds it: the nearest whole number of `2^-20` steps,
saturated to the signed 64-bit range. -/
def quantizeFrequency (x : Double) : Double :=
  Double.ofInt (x * frequencyRadix).round.toInt64 / frequencyRadix

/-- A value as a 16-bit field with `radix` steps per unit holds it. -/
def quantizeHalf (radix x : Double) : Double :=
  Double.ofInt (x * radix).round.toInt16 / radix

theorem reads_readFrequency (x : Double) :
    Reads readFrequency (beBytes 8 (frequencyWord x)) (quantizeFrequency x) := by
  have hmem := (x * frequencyRadix).round.toInt64_mem
  exact (reads_readSigned 8 _ (by decide) hmem.1 hmem.2).bind_nil (Reads.pure _)

theorem halfWordOf_lt (radix x : Double) : halfWordOf radix x < 2 ^ 16 :=
  ofSigned_lt 16 _

theorem toSigned_halfWordOf (radix x : Double) :
    toSigned 16 (halfWordOf radix x) = (x * radix).round.toInt16 := by
  have hmem := (x * radix).round.toInt16_mem
  exact toSigned_ofSigned (by decide) hmem.1 hmem.2

theorem reads_readLowHalf (radix x : Double) :
    Reads (readLowHalf radix) (beBytes 4 (halfWordOf radix x)) (quantizeHalf radix x) := by
  have hlt := halfWordOf_lt radix x
  refine (reads_readWord 4 (halfWordOf radix x)).bind_nil (Reads.pure_of_eq ?_)
  rw [Nat.mod_eq_of_lt (show halfWordOf radix x < 2 ^ (8 * 4) by omega), Nat.mod_eq_of_lt hlt,
    toSigned_halfWordOf]
  rfl

theorem reads_readSignedHalf (radix x : Double) :
    Reads (readSigned 2) (beBytes 2 (halfWordOf radix x)) (x * radix).round.toInt16 := by
  have hmem := (x * radix).round.toInt16_mem
  exact reads_readSigned 2 _ (by decide) hmem.1 hmem.2

/-- Two 16-bit fields packed in one word are its two halves. -/
theorem beBytes_halves (hi : Nat) {lo : Nat} (hlo : lo < 2 ^ 16) :
    beBytes 4 (hi * 2 ^ 16 + lo) = beBytes 2 hi ++ beBytes 2 lo := by
  rw [show 4 = 2 + 2 from rfl, beBytes_add, ← beBytes_mod 2 (hi * 2 ^ 16 + lo)]
  congr 2
  · omega
  · omega

/-- An optional field of whole words is whole words. -/
theorem length_elim_words {α : Type} (o : Option α) (f : α → Bytes) (k : Nat)
    (hf : ∀ x, (f x).length = 4 * k) : (o.elim [] f).length % 4 = 0 := by
  cases o with
  | none => rfl
  | some x =>
    show (f x).length % 4 = 0
    rw [hf x]
    omega

/-! ## Indicator words -/

theorem withMask_lt {indicator mask : Nat} (present : Bool) (hi : indicator < 2 ^ 32)
    (hm : mask < 2 ^ 32) : withMask indicator mask present < 2 ^ 32 := by
  cases present
  · exact Nat.lt_of_le_of_lt Nat.and_le_left hi
  · exact Nat.or_lt_two_pow hi hm

/-! ## Receiver contexts -/

namespace ReceiverContext

/-- The indicator word written for a receiver context. -/
def wireIndicator (c : ReceiverContext) : Nat :=
  withMask (withMask (withMask (withMask c.indicator.toNat referencePointMask c.referencePoint.isSome)
    frequencyMask c.frequency.isSome) gainMask c.ifGain.isSome) temperatureMask c.temperature.isSome

/-- The receiver context its encoding reads back as. -/
def normalize (c : ReceiverContext) : ReceiverContext :=
  { indicator := c.wireIndicator.toUInt32
    referencePoint := c.referencePoint
    frequency := c.frequency.map quantizeFrequency
    ifGain := c.ifGain.map (quantizeHalf gainRadix)
    rfGain := c.rfGain.map (quantizeHalf gainRadix)
    temperature := c.temperature.map (quantizeHalf temperatureRadix) }

theorem wireIndicator_fields (c : ReceiverContext) :
    c.wireIndicator < 2 ^ 32 ∧
      hasMask c.wireIndicator referencePointMask = c.referencePoint.isSome ∧
      hasMask c.wireIndicator frequencyMask = c.frequency.isSome ∧
      hasMask c.wireIndicator gainMask = c.ifGain.isSome ∧
      hasMask c.wireIndicator temperatureMask = c.temperature.isSome := by
  refine ⟨?_, ?_, ?_, ?_, ?_⟩
  · unfold wireIndicator
    repeat apply withMask_lt _ _ (by decide)
    exact c.indicator.toNat_lt
  all_goals
    unfold wireIndicator
    simp (disch := decide) only [hasMask_withMask_of_disjoint, hasMask_withMask_self]

theorem reads_referencePoint (p : Int32) :
    Reads (do return Int32.ofInt (← readSigned 4)) (beBytes 4 (ofSigned 32 p.toInt)) p :=
  (reads_readSigned 4 p.toInt (by decide) p.le_toInt p.toInt_lt).bind_nil
    (Reads.pure_of_eq (Int32.ofInt_toInt p))

theorem reads_gains (g : Double × Double) :
    Reads (do
        let a ← readSigned 2
        let b ← readSigned 2
        return (Double.ofInt a / gainRadix, Double.ofInt b / gainRadix))
      (beBytes 4 (halfWordOf gainRadix g.1 * 2 ^ 16 + halfWordOf gainRadix g.2))
      (quantizeHalf gainRadix g.1, quantizeHalf gainRadix g.2) := by
  rw [beBytes_halves _ (halfWordOf_lt _ _)]
  exact (reads_readSignedHalf gainRadix g.1).bind
    ((reads_readSignedHalf gainRadix g.2).bind_nil (Reads.pure _))

/-- The bytes of a receiver body: the indicator, then each present field, the gains as one
word. -/
def fieldBytes (c : ReceiverContext) (gains : Option (Double × Double)) : Bytes :=
  beBytes 4 c.wireIndicator ++
    (c.referencePoint.elim [] (fun p => beBytes 4 (ofSigned 32 p.toInt)) ++
    (c.frequency.elim [] (fun f => beBytes 8 (frequencyWord f)) ++
    (gains.elim [] (fun g => beBytes 4 (halfWordOf gainRadix g.1 * 2 ^ 16 +
      halfWordOf gainRadix g.2)) ++
    c.temperature.elim [] (fun t => beBytes 4 (halfWordOf temperatureRadix t)))))

/-- What the encoder writes: the gains only in pairs, both present or both absent. -/
theorem encode_eq_ok {c : ReceiverContext} {bs : Bytes} (h : c.encode = .ok bs) :
    ∃ gains : Option (Double × Double), c.ifGain = gains.map Prod.fst ∧
      c.rfGain = gains.map Prod.snd ∧ bs = c.fieldBytes gains := by
  rcases c with ⟨ind, rp, fr, ig, rg, tp⟩
  unfold encode at h
  cases ig <;> cases rg <;>
    simp only [bind, Except.bind, pure, Except.pure, throw, throwThe, MonadExceptOf.throw,
      Except.ok.injEq, reduceCtorEq] at h <;> subst h
  all_goals
    first
      | refine ⟨none, rfl, rfl, ?_⟩
      | refine ⟨some (_, _), rfl, rfl, ?_⟩
    simp only [fieldBytes, List.append_assoc]
    congr 1
    congr 1
    · cases rp <;> rfl
    congr 1
    · cases fr <;> rfl
    congr 1
    cases tp <;> rfl

/-- A receiver body reads back field by field. -/
theorem reads_fields (c : ReceiverContext) (gains : Option (Double × Double))
    (hig : c.ifGain = gains.map Prod.fst) (hrg : c.rfGain = gains.map Prod.snd) :
    Reads decoder (c.fieldBytes gains) c.normalize := by
  obtain ⟨hlt, href, hfreq, hgain, htemp⟩ := c.wireIndicator_fields
  refine (reads_readWord 4 c.wireIndicator).bind ?_
  rw [Nat.mod_eq_of_lt hlt]
  simp only [href, hfreq, hgain, htemp, hig, Option.isSome_map]
  refine (Reads.readIf_option reads_referencePoint).bind ?_
  refine (Reads.readIf_option reads_readFrequency).bind ?_
  refine (Reads.readIf_option reads_gains).bind ?_
  refine (Reads.readIf_option (reads_readLowHalf temperatureRadix)).bind_nil (Reads.pure_of_eq ?_)
  cases gains <;> simp [normalize, hig, hrg]

/-- A receiver body is whole words, the indicator at least. -/
theorem length_fieldBytes (c : ReceiverContext) (gains : Option (Double × Double)) :
    (c.fieldBytes gains).length % 4 = 0 ∧ 4 ≤ (c.fieldBytes gains).length := by
  have h1 := length_elim_words c.referencePoint (fun p => beBytes 4 (ofSigned 32 p.toInt)) 1
    (fun _ => length_beBytes 4 _)
  have h2 := length_elim_words c.frequency (fun f => beBytes 8 (frequencyWord f)) 2
    (fun _ => length_beBytes 8 _)
  have h3 := length_elim_words gains (fun g => beBytes 4 (halfWordOf gainRadix g.1 * 2 ^ 16 +
    halfWordOf gainRadix g.2)) 1 (fun _ => length_beBytes 4 _)
  have h4 := length_elim_words c.temperature (fun t => beBytes 4 (halfWordOf temperatureRadix t)) 1
    (fun _ => length_beBytes 4 _)
  simp only [fieldBytes, List.length_append, length_beBytes] at h1 h2 h3 h4 ⊢
  omega

/-- A receiver context its encoder accepts reads back normalised. -/
theorem reads_decoder {c : ReceiverContext} {bs : Bytes} (h : c.encode = .ok bs) :
    Reads decoder bs c.normalize := by
  obtain ⟨gains, hig, hrg, rfl⟩ := encode_eq_ok h
  exact reads_fields c gains hig hrg

end ReceiverContext

/-! ## Digitizer contexts -/

namespace DigitizerContext

/-- The indicator word written for a digitizer context. Without a bandwidth only bit 29 of the
bandwidth's two bits is cleared: bit 31 is also the context-change flag. -/
def wireIndicator (c : DigitizerContext) : Nat :=
  withMask (withMask (if c.bandwidth.isSome then c.indicator.toNat ||| bandwidthMask
      else c.indicator.toNat &&& (2 ^ 32 - 1 - 0x20000000)) rfOffsetMask c.rfFrequencyOffset.isSome)
    referenceLevelMask c.referenceLevel.isSome

/-- The digitizer context its encoding reads back as. -/
def normalize (c : DigitizerContext) : DigitizerContext :=
  { indicator := c.wireIndicator.toUInt32
    bandwidth := c.bandwidth.map quantizeFrequency
    referenceLevel := c.referenceLevel.map (quantizeHalf gainRadix)
    rfFrequencyOffset := c.rfFrequencyOffset.map quantizeFrequency }

/-- Setting the bandwidth sets both of its bits; clearing it clears bit 29, so the two-bit
mask no longer matches even when bit 31 stays. -/
theorem hasMask_bandwidth (indicator : Nat) (present : Bool) :
    hasMask (if present then indicator ||| bandwidthMask
      else indicator &&& (2 ^ 32 - 1 - 0x20000000)) bandwidthMask = present := by
  cases present with
  | true => exact hasMask_withMask_true indicator bandwidthMask
  | false =>
    apply Bool.eq_false_iff.mpr
    intro h
    have := (hasMask_iff _ _).mp h 29 (by decide)
    have h29 : Nat.testBit 0x20000000 29 = true := by decide
    rw [if_neg Bool.false_ne_true, Nat.testBit_and,
      testBit_clearMask (by decide : 0x20000000 < 2 ^ 32)] at this
    simp [h29] at this

theorem wireIndicator_fields (c : DigitizerContext) :
    c.wireIndicator < 2 ^ 32 ∧ hasMask c.wireIndicator bandwidthMask = c.bandwidth.isSome ∧
      hasMask c.wireIndicator rfOffsetMask = c.rfFrequencyOffset.isSome ∧
      hasMask c.wireIndicator referenceLevelMask = c.referenceLevel.isSome := by
  have hbw : (if c.bandwidth.isSome then c.indicator.toNat ||| bandwidthMask
      else c.indicator.toNat &&& (2 ^ 32 - 1 - 0x20000000)) < 2 ^ 32 := by
    split
    · exact Nat.or_lt_two_pow c.indicator.toNat_lt (by decide)
    · exact Nat.lt_of_le_of_lt Nat.and_le_left c.indicator.toNat_lt
  refine ⟨?_, ?_, ?_, ?_⟩
  · exact withMask_lt _ (withMask_lt _ hbw (by decide)) (by decide)
  all_goals
    unfold wireIndicator
    simp (disch := decide) only [hasMask_withMask_of_disjoint, hasMask_withMask_self,
      hasMask_bandwidth]

/-- The bytes of a digitizer body: the indicator, then each present field. -/
def fieldBytes (c : DigitizerContext) : Bytes :=
  beBytes 4 c.wireIndicator ++ (c.bandwidth.elim [] (fun f => beBytes 8 (frequencyWord f)) ++
    (c.rfFrequencyOffset.elim [] (fun f => beBytes 8 (frequencyWord f)) ++
    c.referenceLevel.elim [] (fun l => beBytes 4 (halfWordOf gainRadix l))))

/-- A digitizer context always encodes, to its field bytes. -/
theorem encode_eq (c : DigitizerContext) : c.encode = .ok c.fieldBytes := by
  rcases c with ⟨ind, bw, lev, off⟩
  simp only [encode, fieldBytes, List.append_assoc, Except.ok.injEq]
  congr 1
  congr 1
  · cases bw <;> rfl
  congr 1
  · cases off <;> rfl
  cases lev <;> rfl

/-- A digitizer body is whole words, the indicator at least. -/
theorem length_fieldBytes (c : DigitizerContext) :
    c.fieldBytes.length % 4 = 0 ∧ 4 ≤ c.fieldBytes.length := by
  have h1 := length_elim_words c.bandwidth (fun f => beBytes 8 (frequencyWord f)) 2
    (fun _ => length_beBytes 8 _)
  have h2 := length_elim_words c.rfFrequencyOffset (fun f => beBytes 8 (frequencyWord f)) 2
    (fun _ => length_beBytes 8 _)
  have h3 := length_elim_words c.referenceLevel (fun l => beBytes 4 (halfWordOf gainRadix l)) 1
    (fun _ => length_beBytes 4 _)
  simp only [fieldBytes, List.length_append, length_beBytes] at h1 h2 h3 ⊢
  omega

theorem reads_fields (c : DigitizerContext) : Reads decoder c.fieldBytes c.normalize := by
  obtain ⟨hlt, hbw, hoff, hlev⟩ := c.wireIndicator_fields
  refine (reads_readWord 4 c.wireIndicator).bind ?_
  rw [Nat.mod_eq_of_lt hlt]
  simp only [hbw, hoff, hlev]
  refine (Reads.readIf_option reads_readFrequency).bind ?_
  refine (Reads.readIf_option reads_readFrequency).bind ?_
  exact (Reads.readIf_option (reads_readLowHalf gainRadix)).bind_nil (Reads.pure _)

/-- A digitizer context reads back normalised. -/
theorem reads_decoder {c : DigitizerContext} {bs : Bytes} (h : c.encode = .ok bs) :
    Reads decoder bs c.normalize := by
  rw [encode_eq, Except.ok.injEq] at h
  exact h ▸ reads_fields c

end DigitizerContext

/-! ## Extension contexts -/

namespace ExtensionContext

/-- The indicator word written for an extension context. -/
def wireIndicator (c : ExtensionContext) : Nat :=
  withMask (withMask c.indicator.toNat sweepStartMask c.sweepStartId.isSome) streamStartMask
    c.streamStartId.isSome

/-- The extension context its encoding reads back as: only the indicator changes. -/
def normalize (c : ExtensionContext) : ExtensionContext :=
  { c with indicator := c.wireIndicator.toUInt32 }

theorem wireIndicator_fields (c : ExtensionContext) :
    c.wireIndicator < 2 ^ 32 ∧ hasMask c.wireIndicator sweepStartMask = c.sweepStartId.isSome ∧
      hasMask c.wireIndicator streamStartMask = c.streamStartId.isSome := by
  refine ⟨?_, ?_, ?_⟩
  · exact withMask_lt _ (withMask_lt _ c.indicator.toNat_lt (by decide)) (by decide)
  all_goals
    unfold wireIndicator
    simp (disch := decide) only [hasMask_withMask_of_disjoint, hasMask_withMask_self]

theorem reads_marker (v : UInt32) :
    Reads (do return (← readWord 4).toUInt32) (beBytes 4 v.toNat) v :=
  (reads_readWord 4 v.toNat).bind_nil
    (Reads.pure_of_eq (by rw [Nat.mod_eq_of_lt v.toNat_lt]; simp))

/-- The bytes of an extension body: the indicator, then each present marker. -/
def fieldBytes (c : ExtensionContext) : Bytes :=
  beBytes 4 c.wireIndicator ++ (c.sweepStartId.elim [] (fun v => beBytes 4 v.toNat) ++
    c.streamStartId.elim [] (fun v => beBytes 4 v.toNat))

/-- An extension context always encodes, to its field bytes. -/
theorem encode_eq (c : ExtensionContext) : c.encode = .ok c.fieldBytes := by
  rcases c with ⟨ind, sweep, stream⟩
  simp only [encode, fieldBytes, List.append_assoc, Except.ok.injEq]
  congr 1
  congr 1
  · cases sweep <;> rfl
  cases stream <;> rfl

/-- An extension body is whole words, the indicator at least. -/
theorem length_fieldBytes (c : ExtensionContext) :
    c.fieldBytes.length % 4 = 0 ∧ 4 ≤ c.fieldBytes.length := by
  have h1 := length_elim_words c.sweepStartId (fun v => beBytes 4 v.toNat) 1
    (fun _ => length_beBytes 4 _)
  have h2 := length_elim_words c.streamStartId (fun v => beBytes 4 v.toNat) 1
    (fun _ => length_beBytes 4 _)
  simp only [fieldBytes, List.length_append, length_beBytes] at h1 h2 ⊢
  omega

theorem reads_fields (c : ExtensionContext) : Reads decoder c.fieldBytes c.normalize := by
  obtain ⟨hlt, hsweep, hstream⟩ := c.wireIndicator_fields
  refine (reads_readWord 4 c.wireIndicator).bind ?_
  rw [Nat.mod_eq_of_lt hlt]
  simp only [hsweep, hstream]
  refine (Reads.readIf_option reads_marker).bind ?_
  exact (Reads.readIf_option reads_marker).bind_nil (Reads.pure_of_eq (by simp [normalize]))

/-- An extension context reads back normalised. -/
theorem reads_decoder {c : ExtensionContext} {bs : Bytes} (h : c.encode = .ok bs) :
    Reads decoder bs c.normalize := by
  rw [encode_eq, Except.ok.injEq] at h
  exact h ▸ reads_fields c

end ExtensionContext

end SweptSpectrum.Vrt
