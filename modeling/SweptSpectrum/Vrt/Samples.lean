import SweptSpectrum.Vrt.Cursor

/-!
IF sample payloads.

A payload is whole 32-bit words. `i16q16` words hold an I sample then a Q sample, `i16` words
hold two real samples, `i32` words one; all big-endian two's complement. Decoding needs a
payload of whole words; encoding needs I and Q of equal length and an even count of 16-bit
real samples, so that the words come out whole.
-/

namespace SweptSpectrum.Vrt

open Wire

/-- The samples of one data packet. -/
inductive Samples where
  | iq (i q : List Int16)
  | real16 (values : List Int16)
  | real32 (values : List Int32)
  deriving Repr, DecidableEq

namespace Samples

/-- The encoding of the samples. -/
def sampleType : Samples → SampleType
  | .iq .. => .i16q16
  | .real16 _ => .i16
  | .real32 _ => .i32

/-- The number of samples; an I/Q pair counts once, by its I part. -/
def length : Samples → Nat
  | .iq i _ => i.length
  | .real16 v => v.length
  | .real32 v => v.length

end Samples

/-- The 16-bit signed samples of a byte string, two bytes each; a last odd byte is dropped. -/
def halfWords : Bytes → List Int16
  | a :: b :: rest => ((a.toUInt16 <<< 8) ||| b.toUInt16).toInt16 :: halfWords rest
  | _ => []

/-- The 32-bit signed samples of a byte string, four bytes each; a short tail is dropped. -/
def fullWords : Bytes → List Int32
  | a :: b :: c :: d :: rest =>
    ((a.toUInt32 <<< 24) ||| (b.toUInt32 <<< 16) ||| (c.toUInt32 <<< 8) ||| d.toUInt32).toInt32 ::
      fullWords rest
  | _ => []

/-- Splits alternating elements: the first, third, … and the second, fourth, …. -/
def unzipAlternate {α : Type} : List α → List α × List α
  | a :: b :: rest =>
    let (xs, ys) := unzipAlternate rest
    (a :: xs, b :: ys)
  | [a] => ([a], [])
  | [] => ([], [])

/-- Decodes a payload of whole words. -/
def decodeSamples (payload : Bytes) (t : SampleType) : Except LinkError Samples :=
  if payload.length % 4 ≠ 0 then .error (.formatViolation (.unalignedSamples payload.length))
  else
    match t with
    | .i16q16 =>
      let (i, q) := unzipAlternate (halfWords payload)
      .ok (.iq i q)
    | .i16 => .ok (.real16 (halfWords payload))
    | .i32 => .ok (.real32 (fullWords payload))

/-- The two bytes of a 16-bit sample. -/
def halfWordBytes (s : Int16) : Bytes :=
  let u := s.toUInt16
  [(u >>> 8).toUInt8, u.toUInt8]

/-- The four bytes of a 32-bit sample. -/
def fullWordBytes (s : Int32) : Bytes :=
  let u := s.toUInt32
  [(u >>> 24).toUInt8, (u >>> 16).toUInt8, (u >>> 8).toUInt8, u.toUInt8]

/-- Encodes samples into whole words. -/
def encodeSamples : Samples → Except LinkError Bytes
  | .iq i q =>
    if i.length ≠ q.length then .error (.formatViolation (.iqLengthMismatch i.length q.length))
    else .ok ((i.zip q).flatMap fun (a, b) => halfWordBytes a ++ halfWordBytes b)
  | .real16 v =>
    if v.length % 2 ≠ 0 then .error (.formatViolation (.oddI16Count v.length))
    else .ok (v.flatMap halfWordBytes)
  | .real32 v => .ok (v.flatMap fullWordBytes)

theorem length_halfWordBytes (s : Int16) : (halfWordBytes s).length = 2 := rfl

end SweptSpectrum.Vrt
