import SweptSpectrum.Vrt.Cursor
import SweptSpectrum.Double.Basic

/-!
Context packet bodies: an indicator word, then one field per indicator bit that is set, in a
fixed order.

Frequencies, bandwidths and offsets are 64-bit fixed point with 20 fraction bits; gains and the
reference level are 16-bit fixed point with 7 fraction bits; the temperature is 16-bit fixed
point with 6 fraction bits. A field is read when every bit of its mask is set in the indicator.
Writing rounds a value to the nearest step (a half away from zero) and saturates at the ends
of the word, a not-a-number writing zero; it sets the bits of the fields present and clears
the others (for the bandwidth only bit 29, as bit 31 doubles as the context-change flag).
-/

namespace SweptSpectrum.Vrt

open Wire

/-- Receiver settings. -/
structure ReceiverContext where
  indicator : UInt32 := 0
  referencePoint : Option Int32 := none
  frequency : Option Double := none
  ifGain : Option Double := none
  rfGain : Option Double := none
  temperature : Option Double := none
  deriving Repr, BEq

/-- Digitizer settings. -/
structure DigitizerContext where
  indicator : UInt32 := 0
  bandwidth : Option Double := none
  referenceLevel : Option Double := none
  rfFrequencyOffset : Option Double := none
  deriving Repr, BEq

/-- Sweep and stream markers. -/
structure ExtensionContext where
  indicator : UInt32 := 0
  sweepStartId : Option UInt32 := none
  streamStartId : Option UInt32 := none
  deriving Repr, BEq

/-- Steps per unit of the 64-bit frequency fixed point. -/
def frequencyRadix : Double := 1048576
/-- Steps per unit of the gain and reference level fixed point. -/
def gainRadix : Double := 128
/-- Steps per unit of the temperature fixed point. -/
def temperatureRadix : Double := 64

/-- Receiver field masks. -/
def referencePointMask : Nat := 0x40000000
def frequencyMask : Nat := 0x08000000
def gainMask : Nat := 0x00800000
def temperatureMask : Nat := 0x00040000
/-- Digitizer field masks; the bandwidth needs both bits 31 and 29. -/
def bandwidthMask : Nat := 0xa0000000
def rfOffsetMask : Nat := 0x04000000
def referenceLevelMask : Nat := 0x01000000
/-- Extension field masks. -/
def sweepStartMask : Nat := 0x00000001
def streamStartMask : Nat := 0x00000002

/-- Whether every bit of `mask` is set in `indicator`. -/
def hasMask (indicator mask : Nat) : Bool := indicator &&& mask == mask

/-- Sets the bits of `mask` when `present`, clears them otherwise. -/
def withMask (indicator mask : Nat) (present : Bool) : Nat :=
  if present then indicator ||| mask else indicator &&& (2 ^ 32 - 1 - mask)

/-- The 64-bit fixed-point word of a frequency. -/
def frequencyWord (x : Double) : Nat := ofSigned 64 (x * frequencyRadix).round.toInt64

/-- The 16-bit fixed-point word of a value with `radix` steps per unit. -/
def halfWordOf (radix x : Double) : Nat := ofSigned 16 (x * radix).round.toInt16

/-- Reads a 64-bit fixed-point frequency. -/
def readFrequency : Decoder Double := do
  return Double.ofInt (← readSigned 8) / frequencyRadix

/-- Reads the low half of a word as a 16-bit fixed-point value. -/
def readLowHalf (radix : Double) : Decoder Double := do
  return Double.ofInt (toSigned 16 ((← readWord 4) % 2 ^ 16)) / radix

/-- Reads a field when its mask is set. -/
def readIf {α : Type} (present : Bool) (d : Decoder α) : Decoder (Option α) :=
  if present then some <$> d else pure none

namespace ReceiverContext

/-- The body of a receiver context packet. The two gains share one word, so they are written
together or not at all. -/
def encode (c : ReceiverContext) : Except LinkError Bytes := do
  let gains ← match c.ifGain, c.rfGain with
    | some a, some b => pure (some (a, b))
    | none, none => pure none
    | _, _ => throw (.formatViolation .unpairedGains)
  let ind := withMask c.indicator.toNat referencePointMask c.referencePoint.isSome
  let ind := withMask ind frequencyMask c.frequency.isSome
  let ind := withMask ind gainMask gains.isSome
  let ind := withMask ind temperatureMask c.temperature.isSome
  return beBytes 4 ind ++
    (match c.referencePoint with | some p => beBytes 4 (ofSigned 32 p.toInt) | none => []) ++
    (match c.frequency with | some f => beBytes 8 (frequencyWord f) | none => []) ++
    (match gains with
      | some (a, b) => beBytes 4 (halfWordOf gainRadix a * 2 ^ 16 + halfWordOf gainRadix b)
      | none => []) ++
    (match c.temperature with | some t => beBytes 4 (halfWordOf temperatureRadix t) | none => [])

/-- Reads a receiver context body. -/
def decoder : Decoder ReceiverContext := do
  let ind ← readWord 4
  let referencePoint ← readIf (hasMask ind referencePointMask) do
    return Int32.ofInt (← readSigned 4)
  let frequency ← readIf (hasMask ind frequencyMask) readFrequency
  let gains ← readIf (hasMask ind gainMask) do
    let a ← readSigned 2
    let b ← readSigned 2
    return (Double.ofInt a / gainRadix, Double.ofInt b / gainRadix)
  let temperature ← readIf (hasMask ind temperatureMask) (readLowHalf temperatureRadix)
  return { indicator := ind.toUInt32, referencePoint, frequency,
           ifGain := gains.map Prod.fst, rfGain := gains.map Prod.snd, temperature }

end ReceiverContext

namespace DigitizerContext

/-- The body of a digitizer context packet. -/
def encode (c : DigitizerContext) : Except LinkError Bytes :=
  let ind := if c.bandwidth.isSome then c.indicator.toNat ||| bandwidthMask
    else c.indicator.toNat &&& (2 ^ 32 - 1 - 0x20000000)
  let ind := withMask ind rfOffsetMask c.rfFrequencyOffset.isSome
  let ind := withMask ind referenceLevelMask c.referenceLevel.isSome
  .ok (beBytes 4 ind ++
    (match c.bandwidth with | some f => beBytes 8 (frequencyWord f) | none => []) ++
    (match c.rfFrequencyOffset with | some f => beBytes 8 (frequencyWord f) | none => []) ++
    (match c.referenceLevel with | some l => beBytes 4 (halfWordOf gainRadix l) | none => []))

/-- Reads a digitizer context body. -/
def decoder : Decoder DigitizerContext := do
  let ind ← readWord 4
  let bandwidth ← readIf (hasMask ind bandwidthMask) readFrequency
  let rfFrequencyOffset ← readIf (hasMask ind rfOffsetMask) readFrequency
  let referenceLevel ← readIf (hasMask ind referenceLevelMask) (readLowHalf gainRadix)
  return { indicator := ind.toUInt32, bandwidth, referenceLevel, rfFrequencyOffset }

end DigitizerContext

namespace ExtensionContext

/-- The body of an extension context packet. -/
def encode (c : ExtensionContext) : Except LinkError Bytes :=
  let ind := withMask c.indicator.toNat sweepStartMask c.sweepStartId.isSome
  let ind := withMask ind streamStartMask c.streamStartId.isSome
  .ok (beBytes 4 ind ++
    (match c.sweepStartId with | some v => beBytes 4 v.toNat | none => []) ++
    (match c.streamStartId with | some v => beBytes 4 v.toNat | none => []))

/-- Reads an extension context body. -/
def decoder : Decoder ExtensionContext := do
  let ind ← readWord 4
  let sweepStartId ← readIf (hasMask ind sweepStartMask) do return (← readWord 4).toUInt32
  let streamStartId ← readIf (hasMask ind streamStartMask) do return (← readWord 4).toUInt32
  return { indicator := ind.toUInt32, sweepStartId, streamStartId }

end ExtensionContext

theorem hasMask_withMask_true (indicator mask : Nat) :
    hasMask (withMask indicator mask true) mask = true := by
  simp only [hasMask, withMask, if_true, beq_iff_eq]
  apply Nat.eq_of_testBit_eq
  intro i
  simp only [Nat.testBit_and, Nat.testBit_or]
  cases mask.testBit i <;> cases indicator.testBit i <;> rfl

end SweptSpectrum.Vrt
