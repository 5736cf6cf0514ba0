import SweptSpectrum.Proofs.Vrt.Framing

/-!
# Header bytes: which decode, with which error, and how they are written back

A header decoder reads two words, checks the type, the stream and the integer timestamp, then
reads the timestamp words and checks the picoseconds and the size. `Header.Check.order` lists
these checks in that order, each with the error it raises (`Header.Check.fault?`): a header's
bytes decode exactly when they pass them all (`Header.Accepted` says so in the format's terms),
and otherwise the error is that of the first check they fail, whatever the buffer's length.

A decoded header is written back in one canonical form: word 0 with fixed timestamp kinds and
its unused bits cleared, words 1 and 2 as they were, and the picoseconds zeroed where word 0 did
not announce them (`Header.canonical`). Encoding is undone by decoding on every header the
decoder can return, so decoding, encoding and decoding again is decoding.
-/

namespace SweptSpectrum.Vrt

open Wire

/-! ## Words and reads -/

theorem beValue_lt (bs : Bytes) : beValue bs < 2 ^ (8 * bs.length) := by
  induction bs using List.reverseRecOn with
  | nil => simp [beValue]
  | append_singleton bs a ih =>
    have ha := a.toNat_lt
    have hpow : 2 ^ (8 * (bs ++ [a]).length) = 2 ^ (8 * bs.length) * 256 := by
      rw [List.length_append, List.length_singleton, Nat.mul_succ, Nat.pow_add]
    rw [beValue_append_byte, hpow]
    omega

theorem beValue_take_lt (n : Nat) (bs : Bytes) : beValue (bs.take n) < 2 ^ (8 * n) :=
  Nat.lt_of_lt_of_le (beValue_lt _)
    (Nat.pow_le_pow_right (by decide) (Nat.mul_le_mul_left 8 (List.length_take_le n bs)))

/-- A byte string is the big-endian word it denotes, written at its own width. -/
theorem beBytes_beValue (bs : Bytes) : beBytes bs.length (beValue bs) = bs := by
  induction bs using List.reverseRecOn with
  | nil => rfl
  | append_singleton bs a ih =>
    have ha := a.toNat_lt
    have hdiv : (beValue bs * 256 + a.toNat) / 256 = beValue bs := by omega
    have hmod : (beValue bs * 256 + a.toNat) % 256 = a.toNat := by omega
    rw [List.length_append, List.length_singleton, beBytes, beValue_append_byte, hdiv, ih, hmod]
    simp [Nat.toUInt8]

theorem beBytes_zero (width : Nat) : beBytes width 0 = List.replicate width 0 := by
  induction width with
  | zero => rfl
  | succ w ih =>
    rw [beBytes, Nat.zero_div, ih, List.replicate_succ']
    rfl

/-- A word read from a cursor: the next `w` bytes, or the offset they would reach. -/
theorem readWord_cursor (w : Nat) (rest : Bytes) (off size : Nat) :
    readWord w ⟨rest, off, size⟩ = if rest.length < w then .error (.frameIncomplete (off + w) size)
      else .ok (beValue (rest.take w), ⟨rest.drop w, off + w, size⟩) := by
  by_cases h : rest.length < w
  · rw [if_pos h]
    show (takeBytes w ⟨rest, off, size⟩ >>= _) = _
    rw [takeBytes_short w _ h]
    rfl
  · rw [if_neg h]
    have htake : (rest.take w).length = w := List.length_take_of_le (by omega)
    show (takeBytes w ⟨rest, off, size⟩ >>= _) = _
    simp only [takeBytes, htake, if_true]
    rfl

/-- A word read at offset `off` of a buffer that holds it. -/
theorem readWord_drop_ok {b : Bytes} {off w : Nat} (pos : Nat) (h : off + w ≤ b.length) :
    readWord w ⟨b.drop off, pos, b.length⟩ =
      .ok (beValue ((b.drop off).take w), ⟨b.drop (off + w), pos + w, b.length⟩) := by
  rw [readWord_cursor, if_neg (by rw [List.length_drop]; omega), List.drop_drop]

/-- A word read at offset `off` of a buffer too short for it: the read expects `pos + w` bytes. -/
theorem readWord_drop_short {b : Bytes} {off w : Nat} (pos : Nat) (hoff : off ≤ b.length)
    (h : b.length < off + w) :
    readWord w ⟨b.drop off, pos, b.length⟩ = .error (.frameIncomplete (pos + w) b.length) := by
  rw [readWord_cursor, if_pos (by rw [List.length_drop]; omega)]

theorem Decoder.bind_ok {α β : Type} {d : Decoder α} {f : α → Decoder β} {c c' : Cursor} {a : α}
    (h : d c = .ok (a, c')) : (d >>= f) c = f a c' := by
  show (d c >>= fun p => f p.1 p.2) = _
  rw [h]
  rfl

theorem Decoder.bind_error {α β : Type} {d : Decoder α} {f : α → Decoder β} {c : Cursor}
    {e : LinkError} (h : d c = .error e) : (d >>= f) c = .error e := by
  show (d c >>= fun p => f p.1 p.2) = _
  rw [h]
  rfl

theorem PacketType.code_of_ofCode? {n : Nat} {t : PacketType} (h : PacketType.ofCode? n = some t) :
    t.code = n := by
  unfold PacketType.ofCode? at h
  split at h <;> cases h <;> rfl

theorem PacketType.exists_ofCode?_iff (n : Nat) :
    (∃ t, PacketType.ofCode? n = some t) ↔ n ∈ [1, 4, 5] := by
  constructor
  · rintro ⟨t, ht⟩
    rw [← PacketType.code_of_ofCode? ht]
    cases t <;> decide
  · intro hn
    simp only [List.mem_cons, List.not_mem_nil, or_false] at hn
    rcases hn with rfl | rfl | rfl <;> exact ⟨_, rfl⟩

theorem StreamId.value_of_ofValue? {v : Nat} {s : StreamId} (h : StreamId.ofValue? v = some s) :
    s.value = v := by
  have := List.find?_some h
  simpa using this

theorem StreamId.exists_ofValue?_iff (v : Nat) :
    (∃ s, StreamId.ofValue? v = some s) ↔ 0x90000001 ≤ v ∧ v ≤ 0x90000006 := by
  constructor
  · rintro ⟨s, hs⟩
    rw [← StreamId.value_of_ofValue? hs]
    cases s <;> decide
  · intro hv
    have : v = 0x90000001 ∨ v = 0x90000002 ∨ v = 0x90000003 ∨ v = 0x90000004 ∨
        v = 0x90000005 ∨ v = 0x90000006 := by omega
    rcases this with rfl | rfl | rfl | rfl | rfl | rfl <;> exact ⟨_, rfl⟩

namespace Header

/-! ## The words of a header's bytes -/

/-- Word 0: type, trailer bit, timestamp kinds, count and size. -/
def typeWord (b : Bytes) : Nat := beValue (b.take 4)

/-- Word 1: the stream identifier. -/
def streamWord (b : Bytes) : Nat := beValue ((b.drop 4).take 4)

/-- Word 2: the integer seconds. -/
def secondsWord (b : Bytes) : Nat := beValue ((b.drop 8).take 4)

/-- Words 3 and 4: the picoseconds. -/
def picosWord (b : Bytes) : Nat := beValue ((b.drop 12).take 8)

/-! ## The checks, in order -/

/-- The checks a header's bytes must pass, named for what they require. -/
inductive Check where
  | typeWordPresent
  | streamWordPresent
  | knownType
  | knownStream
  | streamMatchesType
  | integerTimestamp
  | secondsPresent
  | picosecondsPresent
  | picosecondsBelowSecond
  | sizeCoversMinimum
  deriving Repr, DecidableEq

namespace Check

/-- The order in which the decoder makes the checks. -/
def order : List Check :=
  [typeWordPresent, streamWordPresent, knownType, knownStream, streamMatchesType, integerTimestamp,
    secondsPresent, picosecondsPresent, picosecondsBelowSecond, sizeCoversMinimum]

/-- The error a check raises on `b`, or `none` when `b` passes it. A check on a field that an
earlier check found unknown passes. -/
def fault? (b : Bytes) : Check → Option LinkError
  | typeWordPresent => if b.length < 4 then some (.frameIncomplete 4 b.length) else none
  | streamWordPresent => if b.length < 8 then some (.frameIncomplete 8 b.length) else none
  | knownType =>
    match PacketType.ofCode? (typeWord b / 2 ^ 28) with
    | some _ => none
    | none => some (.unknownFrame (.packetType (typeWord b / 2 ^ 28)))
  | knownStream =>
    match StreamId.ofValue? (streamWord b) with
    | some _ => none
    | none => some (.unknownFrame (.streamId (streamWord b)))
  | streamMatchesType =>
    match PacketType.ofCode? (typeWord b / 2 ^ 28), StreamId.ofValue? (streamWord b) with
    | some t, some s => if s.packetType ≠ t then some (.unknownFrame (.mismatch s t)) else none
    | _, _ => none
  | integerTimestamp =>
    if (typeWord b).testBit 22 || (typeWord b).testBit 23 then none
    else some (.invalidTimestamp .integerMissing)
  | secondsPresent => if b.length < 12 then some (.frameIncomplete 12 b.length) else none
  | picosecondsPresent => if b.length < 20 then some (.frameIncomplete 20 b.length) else none
  | picosecondsBelowSecond =>
    let picos := if (typeWord b).testBit picosBit then picosWord b else 0
    if picos ≥ picosPerSecond then some (.invalidTimestamp (.picoseconds picos)) else none
  | sizeCoversMinimum =>
    match PacketType.ofCode? (typeWord b / 2 ^ 28) with
    | some t =>
      let minimum := minimumWords t (decide (t = .ifData) && (typeWord b).testBit trailerBit)
      if typeWord b % 2 ^ 16 < minimum then
        some (.formatViolation (.sizeBelowMinimum (typeWord b % 2 ^ 16) minimum))
      else none
    | none => none

end Check

/-- The error of the first check that `b` fails, if any. -/
def firstFault? (b : Bytes) : Option LinkError := Check.order.findSome? (·.fault? b)

/-- `hd` is the header that the words at the front of `b` spell. -/
structure Spells (b : Bytes) (hd : Header) : Prop where
  type : hd.packetType.code = typeWord b / 2 ^ 28
  stream : hd.streamId.value = streamWord b
  count : hd.packetCount.toNat = typeWord b / 2 ^ 16 % 16
  size : hd.packetSize.toNat = typeWord b % 2 ^ 16
  trailer : hd.hasTrailer = (decide (hd.packetType = .ifData) && (typeWord b).testBit trailerBit)
  seconds : hd.timestamp.seconds.toNat = secondsWord b
  picoseconds : hd.timestamp.picoseconds.toNat =
    if (typeWord b).testBit picosBit then picosWord b else 0

/-- A header the decoder can return, which is the header its encoding decodes to: a count that
fits four bits, picoseconds below a second, the packet type of its stream, a trailer only on IF
data, and a size that covers what its type needs. -/
structure Canonical (hd : Header) : Prop where
  count_lt : hd.packetCount.toNat < 16
  picoseconds_lt : hd.timestamp.picoseconds.toNat < picosPerSecond
  type_eq : hd.packetType = hd.streamId.packetType
  trailer_data : hd.hasTrailer = true → hd.packetType = .ifData
  size_ge : minimumWords hd.packetType hd.hasTrailer ≤ hd.packetSize.toNat

/-- The decoder, followed through its reads and checks: it fails with the error of the first
check the bytes fail, or returns the header their words spell, which is canonical. -/
theorem decode_cases (b : Bytes) :
    (∃ e, firstFault? b = some e ∧ decode b = .error e) ∨
      (firstFault? b = none ∧ ∃ hd, decode b = .ok hd ∧ Spells b hd ∧ Canonical hd) := by
  unfold decode Decoder.run' decoder
  rw [StateT.run, Cursor.start]
  -- the type word
  by_cases h4 : b.length < 4
  · left
    refine ⟨.frameIncomplete 4 b.length, by simp only [firstFault?, Check.order,
      List.findSome?_cons, Check.fault?, h4, if_true], ?_⟩
    rw [Decoder.bind_error (by rw [readWord_cursor, if_pos h4])]
    rfl
  rw [Decoder.bind_ok (by rw [readWord_cursor, if_neg h4]; rfl :
    readWord 4 ⟨b, 0, b.length⟩ = .ok (typeWord b, ⟨b.drop 4, 0 + 4, b.length⟩))]
  -- the stream word
  by_cases h8 : b.length < 8
  · left
    refine ⟨.frameIncomplete 8 b.length, by simp only [firstFault?, Check.order,
      List.findSome?_cons, Check.fault?, h4, h8, if_false, if_true], ?_⟩
    rw [Decoder.bind_error (readWord_drop_short _ (by omega) (by omega))]
    rfl
  rw [Decoder.bind_ok (show readWord 4 ⟨b.drop 4, 0 + 4, b.length⟩ =
      .ok (streamWord b, ⟨b.drop 8, 0 + 4 + 4, b.length⟩) from readWord_drop_ok _ (by omega))]
  -- the type, the stream and their pairing are checked before any timestamp word is read
  cases ht : PacketType.ofCode? (typeWord b / 2 ^ 28) with
  | none =>
    left
    refine ⟨.unknownFrame (.packetType (typeWord b / 2 ^ 28)), by simp only [firstFault?,
      Check.order, List.findSome?_cons, Check.fault?, h4, h8, if_false, ht], rfl⟩
  | some t =>
  cases hs : StreamId.ofValue? (streamWord b) with
  | none =>
    left
    refine ⟨.unknownFrame (.streamId (streamWord b)), by simp only [firstFault?, Check.order,
      List.findSome?_cons, Check.fault?, h4, h8, if_false, ht, hs], rfl⟩
  | some s =>
  dsimp only
  by_cases hm : s.packetType = t
  swap
  · left
    refine ⟨.unknownFrame (.mismatch s t), by simp only [firstFault?, Check.order,
      List.findSome?_cons, Check.fault?, h4, h8, if_false, ht, hs, hm, ne_eq, not_false_eq_true,
      if_true], ?_⟩
    rw [if_pos hm]
    rfl
  rw [if_neg (not_not.mpr hm)]
  -- an integer timestamp
  cases hi : ((typeWord b).testBit 22 || (typeWord b).testBit 23) with
  | false =>
    left
    refine ⟨.invalidTimestamp .integerMissing, by simp only [firstFault?, Check.order,
      List.findSome?_cons, Check.fault?, h4, h8, if_false, ht, hs, hm, ne_eq,
      not_true_eq_false, hi, Bool.false_eq_true], ?_⟩
    rfl
  | true =>
  rw [Bool.not_true, if_neg Bool.false_ne_true]
  -- the seconds and picoseconds words
  by_cases h12 : b.length < 12
  · left
    refine ⟨.frameIncomplete 12 b.length, by simp only [firstFault?, Check.order,
      List.findSome?_cons, Check.fault?, h4, h8, if_false, ht, hs, hm, ne_eq,
      not_true_eq_false, hi, if_true, h12], ?_⟩
    rw [Decoder.bind_error (readWord_drop_short _ (by omega) (by omega))]
    rfl
  rw [Decoder.bind_ok (show readWord 4 ⟨b.drop 8, 0 + 4 + 4, b.length⟩ =
      .ok (secondsWord b, ⟨b.drop 12, 0 + 4 + 4 + 4, b.length⟩) from readWord_drop_ok _ (by omega))]
  by_cases h20 : b.length < 20
  · left
    refine ⟨.frameIncomplete 20 b.length, by simp only [firstFault?, Check.order,
      List.findSome?_cons, Check.fault?, h4, h8, if_false, ht, hs, hm, ne_eq,
      not_true_eq_false, hi, if_true, h12, h20], ?_⟩
    rw [Decoder.bind_error (readWord_drop_short _ (by omega) (by omega))]
    rfl
  rw [Decoder.bind_ok (show readWord 8 ⟨b.drop 12, 0 + 4 + 4 + 4, b.length⟩ =
      .ok (picosWord b, ⟨b.drop 20, 0 + 4 + 4 + 4 + 8, b.length⟩) from
    readWord_drop_ok _ (by omega))]
  -- picoseconds below a second, then a size that covers the header
  by_cases hp : (if (typeWord b).testBit picosBit then picosWord b else 0) ≥ picosPerSecond
  · left
    refine ⟨.invalidTimestamp (.picoseconds (if (typeWord b).testBit picosBit then picosWord b else 0)),
      by simp only [firstFault?, Check.order, List.findSome?_cons, Check.fault?, h4, h8, if_false,
        ht, hs, hm, ne_eq, not_true_eq_false, hi, if_true, h12, h20, hp], ?_⟩
    rw [if_pos hp]
    rfl
  rw [if_neg hp]
  by_cases hz : typeWord b % 2 ^ 16 <
      minimumWords t (decide (t = .ifData) && (typeWord b).testBit trailerBit)
  · left
    refine ⟨.formatViolation (.sizeBelowMinimum (typeWord b % 2 ^ 16)
      (minimumWords t (decide (t = .ifData) && (typeWord b).testBit trailerBit))),
      by simp only [firstFault?, Check.order, List.findSome?_cons, Check.fault?, h4, h8, if_false,
        ht, hs, hm, ne_eq, not_true_eq_false, hi, if_true, h12, h20, hp, hz], ?_⟩
    rw [if_pos hz]
    rfl
  rw [if_neg hz]
  right
  refine ⟨by simp only [firstFault?, Check.order, List.findSome?_cons, Check.fault?, h4, h8,
    if_false, ht, hs, hm, ne_eq, not_true_eq_false, hi, if_true, h12, h20, hp, hz,
    List.findSome?_nil], _, rfl, ?_, ?_⟩
  · -- the header's fields are the words' fields
    have hsec : secondsWord b < 2 ^ 32 := beValue_take_lt 4 (b.drop 8)
    have hpic : picosWord b < 2 ^ 64 := beValue_take_lt 8 (b.drop 12)
    constructor
    · exact PacketType.code_of_ofCode? ht
    · exact StreamId.value_of_ofValue? hs
    · show (typeWord b / 2 ^ 16 % 16).toUInt8.toNat = _
      rw [Nat.toUInt8, UInt8.toNat_ofNat', Nat.mod_eq_of_lt (by omega)]
    · show (typeWord b % 2 ^ 16).toUInt16.toNat = _
      rw [Nat.toUInt16, UInt16.toNat_ofNat', Nat.mod_eq_of_lt (Nat.mod_lt _ (by decide))]
    · rfl
    · show (secondsWord b).toUInt32.toNat = _
      rw [Nat.toUInt32, UInt32.toNat_ofNat', Nat.mod_eq_of_lt hsec]
    · show (if (typeWord b).testBit picosBit then picosWord b else 0).toUInt64.toNat = _
      rw [Nat.toUInt64, UInt64.toNat_ofNat', Nat.mod_eq_of_lt (by split <;> omega)]
  · -- and they passed every check
    have hsize : (typeWord b % 2 ^ 16).toUInt16.toNat = typeWord b % 2 ^ 16 := by
      rw [Nat.toUInt16, UInt16.toNat_ofNat', Nat.mod_eq_of_lt (Nat.mod_lt _ (by decide))]
    refine ⟨?_, ?_, hm.symm, ?_, ?_⟩
    · show (typeWord b / 2 ^ 16 % 16).toUInt8.toNat < 16
      rw [Nat.toUInt8, UInt8.toNat_ofNat', Nat.mod_eq_of_lt (by omega)]
      omega
    · show (if (typeWord b).testBit picosBit then picosWord b else 0).toUInt64.toNat < _
      have hpic : picosWord b < 2 ^ 64 := beValue_take_lt 8 (b.drop 12)
      rw [Nat.toUInt64, UInt64.toNat_ofNat', Nat.mod_eq_of_lt (by split <;> omega)]
      omega
    · intro htr
      simpa using (Bool.and_eq_true _ _).mp htr |>.1
    · show minimumWords t (decide (t = .ifData) && (typeWord b).testBit trailerBit) ≤
        (typeWord b % 2 ^ 16).toUInt16.toNat
      rw [hsize]
      omega

theorem decode_eq_error_iff (b : Bytes) (e : LinkError) :
    decode b = .error e ↔ firstFault? b = some e := by
  rcases decode_cases b with ⟨e', hf, hd⟩ | ⟨hf, hd, hdec, -⟩
  · rw [hd, hf]
    constructor
    · intro h
      cases h
      rfl
    · intro h
      cases h
      rfl
  · rw [hdec, hf]
    constructor
    · intro h
      cases h
    · intro h
      cases h

theorem decode_eq_ok {b : Bytes} {hd : Header} (h : decode b = .ok hd) :
    firstFault? b = none ∧ Spells b hd ∧ Canonical hd := by
  rcases decode_cases b with ⟨e, -, he⟩ | ⟨hf, hd', hdec, hspell, hcanon⟩
  · rw [h] at he
    cases he
  · rw [h] at hdec
    cases hdec
    exact ⟨hf, hspell, hcanon⟩

/-! ## Acceptance in the format's terms -/

/-- The bytes a header decoder accepts, as the format states them: at least twenty bytes; a
known type in the top nibble of word 0; a known stream in word 1, whose packet type is that
nibble; an integer timestamp (a TSI field other than zero); picoseconds below a second where the
TSF bit 21 announces them; and a size that covers the five header words, the trailer of an IF
data packet with the trailer bit, and the indicator word of any other packet. -/
def Accepted (b : Bytes) : Prop :=
  20 ≤ b.length ∧ typeWord b / 2 ^ 28 ∈ [1, 4, 5] ∧
    (0x90000001 ≤ streamWord b ∧ streamWord b ≤ 0x90000006) ∧
    (∃ s, StreamId.ofValue? (streamWord b) = some s ∧ s.packetType.code = typeWord b / 2 ^ 28) ∧
    typeWord b / 2 ^ 22 % 4 ≠ 0 ∧
    ((typeWord b).testBit 21 = true → picosWord b < 10 ^ 12) ∧
    5 + (if typeWord b / 2 ^ 28 = 1 ∧ (typeWord b).testBit 26 = true then 1 else 0) +
      (if typeWord b / 2 ^ 28 = 1 then 0 else 1) ≤ typeWord b % 2 ^ 16

/-- The TSI field, bits 23 and 22, is other than zero exactly when one of its bits is set. -/
theorem tsi_ne_zero_iff (w : Nat) :
    (w.testBit 22 || w.testBit 23) = true ↔ w / 2 ^ 22 % 4 ≠ 0 := by
  rw [Nat.testBit_eq_decide_div_mod_eq, Nat.testBit_eq_decide_div_mod_eq, Bool.or_eq_true,
    decide_eq_true_eq, decide_eq_true_eq, Nat.pow_succ, ← Nat.div_div_eq_div_mul]
  omega

theorem minimumWords_eq (t : PacketType) (tr : Bool) :
    minimumWords t (decide (t = .ifData) && tr) =
      5 + (if t.code = 1 ∧ tr = true then 1 else 0) + (if t.code = 1 then 0 else 1) := by
  cases t <;> cases tr <;> rfl

/-- Passing every check is being accepted. -/
theorem firstFault?_eq_none_iff (b : Bytes) : firstFault? b = none ↔ Accepted b := by
  simp only [firstFault?, List.findSome?_eq_none_iff, Check.order, List.mem_cons,
    List.not_mem_nil, or_false, forall_eq_or_imp, forall_eq]
  constructor
  · rintro ⟨h4, h8, ht, hs, hm, hi, h12, h20, hp, hz⟩
    simp only [Check.fault?, ite_eq_right_iff, reduceCtorEq, imp_false, Nat.not_lt] at h4 h8 h12 h20
    -- the type and the stream are known
    obtain ⟨t, ht'⟩ : ∃ t, PacketType.ofCode? (typeWord b / 2 ^ 28) = some t := by
      simp only [Check.fault?] at ht
      split at ht
      · exact ⟨_, ‹_›⟩
      · cases ht
    obtain ⟨s, hs'⟩ : ∃ s, StreamId.ofValue? (streamWord b) = some s := by
      simp only [Check.fault?] at hs
      split at hs
      · exact ⟨_, ‹_›⟩
      · cases hs
    simp only [Check.fault?, ht', hs', ne_eq, ite_eq_right_iff, reduceCtorEq, imp_false,
      Decidable.not_not] at hm hz
    simp only [Check.fault?, ite_eq_left_iff, reduceCtorEq, imp_false, Bool.not_eq_true,
      Bool.not_eq_false] at hi
    simp only [Check.fault?, ite_eq_right_iff, reduceCtorEq, imp_false, Nat.not_le] at hp
    refine ⟨h20, (PacketType.exists_ofCode?_iff _).mp ⟨t, ht'⟩,
      (StreamId.exists_ofValue?_iff _).mp ⟨s, hs'⟩,
      ⟨s, hs', by rw [hm, PacketType.code_of_ofCode? ht']⟩, (tsi_ne_zero_iff _).mp hi,
      fun h21 => by simpa [picosBit, h21, picosPerSecond] using hp, ?_⟩
    rw [← PacketType.code_of_ofCode? ht', ← minimumWords_eq]
    simpa [trailerBit] using hz
  · rintro ⟨h20, htype, hstream, ⟨s, hs, hst⟩, hi, hp, hz⟩
    obtain ⟨t, ht⟩ := (PacketType.exists_ofCode?_iff _).mpr htype
    have hts : s.packetType = t := by
      apply Option.some.inj
      rw [← ht, ← hst, PacketType.ofCode?_code]
    have hcode := PacketType.code_of_ofCode? ht
    -- each check passes, in turn
    have hpicos : (if (typeWord b).testBit picosBit then picosWord b else 0) < picosPerSecond := by
      split
      · exact hp ‹_›
      · decide
    have hsize : minimumWords t (decide (t = .ifData) && (typeWord b).testBit trailerBit) ≤
        typeWord b % 2 ^ 16 := by
      rw [minimumWords_eq, hcode]
      exact hz
    refine ⟨?_, ?_, ?_, ?_, ?_, ?_, ?_, ?_, ?_, ?_⟩
    · simp only [Check.fault?, if_neg (show ¬b.length < 4 by omega)]
    · simp only [Check.fault?, if_neg (show ¬b.length < 8 by omega)]
    · simp only [Check.fault?, ht]
    · simp only [Check.fault?, hs]
    · simp only [Check.fault?, ht, hs, hts, ne_eq, not_true_eq_false, if_false]
    · simp only [Check.fault?, (tsi_ne_zero_iff _).mpr hi, if_true]
    · simp only [Check.fault?, if_neg (show ¬b.length < 12 by omega)]
    · simp only [Check.fault?, if_neg (show ¬b.length < 20 by omega)]
    · simp only [Check.fault?]
      rw [if_neg (Nat.not_le.mpr hpicos)]
    · simp only [Check.fault?, ht]
      rw [if_neg (Nat.not_lt.mpr hsize)]

/-- A header's bytes decode exactly when they are accepted, and otherwise fail with the error
of the first check they fail in the decoder's order: an incomplete word 0 or 1 (expecting 4 or
8 bytes), an unknown type, an unknown stream or a stream the type does not carry, a missing
integer timestamp, an incomplete seconds or picoseconds word (expecting 12 or 20 bytes),
picoseconds of a second or more, and a size below the minimum. So the size of every decoded
header covers its own five words: the payload that follows, `4 * size - 20` bytes, is computed
without underflow. -/
theorem decode_checks_in_order (b : Bytes) :
    ((∃ hd, decode b = .ok hd) ↔ Accepted b) ∧
    (∀ e, decode b = .error e ↔ firstFault? b = some e) ∧
    (∀ hd, decode b = .ok hd →
      size ≤ hd.packetSize.toNat * 4 ∧ size + (hd.packetSize.toNat - words) * 4 = hd.packetSize.toNat * 4) := by
  refine ⟨?_, decode_eq_error_iff b, fun hd h => ?_⟩
  · rw [← firstFault?_eq_none_iff]
    constructor
    · rintro ⟨hd, h⟩
      exact (decode_eq_ok h).1
    · intro hf
      rcases decode_cases b with ⟨e, he, -⟩ | ⟨-, hd, hdec, -⟩
      · rw [hf] at he
        cases he
      · exact ⟨hd, hdec⟩
  · have hwords := words_le_of_decode h
    unfold size
    omega

/-- Ten bytes whose word 1 names no stream: the stream is refused before the missing timestamp
words are noticed. -/
example : decode [0x10, 0x60, 0, 5, 0x90, 0, 0, 9, 0, 0] = .error (.unknownFrame (.streamId 0x90000009)) :=
  rfl

/-! ## The canonical form -/

/-- Word 0 as the encoder writes it back: the type nibble, count and size kept, the trailer bit
26 kept on IF data only, the TSI and TSF fields set to 01 and 10, and bits 27, 25 and 24
cleared. -/
def canonicalTypeWord (w : Nat) : Nat :=
  let keep := if w / 2 ^ 28 = 1 then 0xF40FFFFF else 0xF00FFFFF
  w &&& keep ||| 2 ^ 22 ||| 2 ^ 21

/-- The byte of word 0 that holds bits 27 to 20, as either mask leaves it once TSI 01 and TSF 10
are set. -/
theorem canonicalByte (m : Nat) (hm : m < 2 ^ 8) :
    (m &&& 0x40 ||| 4 ||| 2) = (if m.testBit 6 then 70 else 6) ∧ (m &&& 0 ||| 4 ||| 2) = 6 := by
  revert m
  decide +kernel

/-- The canonical word 0 in the terms the encoder adds up: its nibble, its trailer bit, the
timestamp kinds, and the count and size of the low twenty bits. -/
theorem canonicalTypeWord_eq {w : Nat} (hw : w < 2 ^ 32) :
    canonicalTypeWord w = w / 2 ^ 28 * 2 ^ 28 +
      (if w / 2 ^ 28 = 1 ∧ w.testBit 26 = true then 2 ^ 26 else 0) + 2 ^ 22 + 2 ^ 21 +
        w % 2 ^ 20 := by
  -- the word is cut into its low twenty bits, the byte of bits 27 to 20, and the nibble
  have hkeep (keep : Nat) (hk : keep % 2 ^ 20 = 2 ^ 20 - 1) :
      (w &&& keep ||| 2 ^ 22 ||| 2 ^ 21) % 2 ^ 20 = w % 2 ^ 20 := by
    rw [Nat.or_mod_two_pow, Nat.or_mod_two_pow, Nat.and_mod_two_pow, hk,
      Nat.and_two_pow_sub_one_of_lt_two_pow (Nat.mod_lt _ (by decide)),
      show (2 : Nat) ^ 22 % 2 ^ 20 = 0 from rfl, show (2 : Nat) ^ 21 % 2 ^ 20 = 0 from rfl,
      Nat.or_zero, Nat.or_zero]
  have hmid (keep : Nat) : (w &&& keep ||| 2 ^ 22 ||| 2 ^ 21) / 2 ^ 20 =
      (w / 2 ^ 20 &&& keep / 2 ^ 20 ||| 4 ||| 2) := by
    rw [Nat.or_div_two_pow, Nat.or_div_two_pow, Nat.and_div_two_pow]
    rfl
  have hnib : w / 2 ^ 20 / 2 ^ 8 = w / 2 ^ 28 := by rw [Nat.div_div_eq_div_mul, ← Nat.pow_add]
  have hnib_lt : w / 2 ^ 28 < 2 ^ 4 := by omega
  have hhigh (mask : Nat) (hmask : mask / 2 ^ 8 = 2 ^ 4 - 1) :
      (w / 2 ^ 20 &&& mask ||| 4 ||| 2) / 2 ^ 8 = w / 2 ^ 28 := by
    rw [Nat.or_div_two_pow, Nat.or_div_two_pow, Nat.and_div_two_pow, hmask, hnib,
      Nat.and_two_pow_sub_one_of_lt_two_pow hnib_lt, show (4 : Nat) / 2 ^ 8 = 0 from rfl,
      show (2 : Nat) / 2 ^ 8 = 0 from rfl, Nat.or_zero, Nat.or_zero]
  have hbyte (mask : Nat) : (w / 2 ^ 20 &&& mask ||| 4 ||| 2) % 2 ^ 8 =
      (w / 2 ^ 20 % 2 ^ 8 &&& mask % 2 ^ 8 ||| 4 ||| 2) := by
    rw [Nat.or_mod_two_pow, Nat.or_mod_two_pow, Nat.and_mod_two_pow]
  have hbit : (w / 2 ^ 20 % 2 ^ 8).testBit 6 = w.testBit 26 := by
    rw [Nat.testBit_mod_two_pow, Nat.testBit_div_two_pow]
    rfl
  have hm := canonicalByte (w / 2 ^ 20 % 2 ^ 8) (Nat.mod_lt _ (by decide))
  unfold canonicalTypeWord
  split
  · rename_i hdata
    have e1 := Nat.div_add_mod (w &&& 0xF40FFFFF ||| 2 ^ 22 ||| 2 ^ 21) (2 ^ 20)
    have e2 := Nat.div_add_mod (w / 2 ^ 20 &&& 0xF40FFFFF / 2 ^ 20 ||| 4 ||| 2) (2 ^ 8)
    rw [hkeep _ rfl, hmid] at e1
    rw [hhigh _ rfl, hbyte, show (0xF40FFFFF : Nat) / 2 ^ 20 % 2 ^ 8 = 0x40 from rfl, hm.1,
      hbit] at e2
    simp only [hdata, true_and]
    cases h26 : w.testBit 26 <;> simp only [h26, if_true, if_false, Bool.false_eq_true] at e2 ⊢ <;>
      omega
  · rename_i hdata
    have e1 := Nat.div_add_mod (w &&& 0xF00FFFFF ||| 2 ^ 22 ||| 2 ^ 21) (2 ^ 20)
    have e2 := Nat.div_add_mod (w / 2 ^ 20 &&& 0xF00FFFFF / 2 ^ 20 ||| 4 ||| 2) (2 ^ 8)
    rw [hkeep _ rfl, hmid] at e1
    rw [hhigh _ rfl, hbyte, show (0xF00FFFFF : Nat) / 2 ^ 20 % 2 ^ 8 = 0 from rfl, hm.2] at e2
    simp only [hdata, false_and, if_false]
    omega

/-- The twenty bytes a decoded header is written back as: word 0 canonical, words 1 and 2 (the
stream and the seconds) as they were, and the picoseconds as they were where TSF bit 21
announced them, zero otherwise. -/
def canonical (b : Bytes) : Bytes :=
  beBytes 4 (canonicalTypeWord (typeWord b)) ++ (b.drop 4).take 8 ++
    if (typeWord b).testBit picosBit then (b.drop 12).take 8 else List.replicate 8 0

/-- A field of `n` bytes at offset `off` is written back as it was read. -/
theorem beBytes_field {b : Bytes} {off n : Nat} (h : off + n ≤ b.length) :
    beBytes n (beValue ((b.drop off).take n)) = (b.drop off).take n := by
  have hlen : ((b.drop off).take n).length = n := by
    simp only [List.length_take, List.length_drop]
    omega
  have hword := beBytes_beValue ((b.drop off).take n)
  rwa [hlen] at hword

theorem PacketType.eq_ifData_iff (t : PacketType) : t = .ifData ↔ t.code = 1 := by
  cases t <;> decide

/-- The encoder writes word 0 of a decoded header's bytes in canonical form. -/
theorem firstWord_of_spells {b : Bytes} {hd : Header} (hs : Spells b hd) :
    hd.firstWord = canonicalTypeWord (typeWord b) := by
  have hw : typeWord b < 2 ^ 32 := beValue_take_lt 4 b
  have htrailer : hd.hasTrailer = true ↔ typeWord b / 2 ^ 28 = 1 ∧ (typeWord b).testBit 26 = true := by
    rw [hs.trailer, Bool.and_eq_true, decide_eq_true_eq, PacketType.eq_ifData_iff, hs.type]
    rfl
  have hcount : hd.packetCount.toNat % 16 = typeWord b / 2 ^ 16 % 16 := by
    rw [hs.count, Nat.mod_mod]
  rw [canonicalTypeWord_eq hw, firstWord, hs.type, hcount, hs.size]
  by_cases ht : hd.hasTrailer = true
  · rw [if_pos ht, if_pos (htrailer.mp ht)]
    simp only [trailerBit, utcBit, picosBit]
    omega
  · rw [if_neg ht, if_neg (mt htrailer.mpr ht)]
    simp only [utcBit, picosBit]
    omega

/-- Encoding a decoded header gives back the canonical form of its bytes. -/
theorem encode_of_decode {b : Bytes} {hd : Header} (h : decode b = .ok hd) :
    hd.encode = .ok (canonical b) := by
  obtain ⟨hf, hs, hc⟩ := decode_eq_ok h
  have hlen : 20 ≤ b.length := ((firstFault?_eq_none_iff b).mp hf).1
  have hstream : beBytes 4 hd.streamId.value = (b.drop 4).take 4 := by
    rw [hs.stream]
    exact beBytes_field (by omega)
  have hseconds : beBytes 4 hd.timestamp.seconds.toNat = (b.drop 8).take 4 := by
    rw [hs.seconds]
    exact beBytes_field (by omega)
  have hpicos : beBytes 8 hd.timestamp.picoseconds.toNat =
      if (typeWord b).testBit picosBit then (b.drop 12).take 8 else List.replicate 8 0 := by
    rw [hs.picoseconds]
    split
    · exact beBytes_field (by omega)
    · exact beBytes_zero 8
  -- words 1 and 2 are the eight bytes after word 0
  have hmiddle : (b.drop 4).take 8 = (b.drop 4).take 4 ++ (b.drop 8).take 4 := by
    rw [show 8 = 4 + 4 from rfl, List.take_add, List.drop_drop]
  rw [encode, if_neg (Nat.not_le.mpr hc.picoseconds_lt), canonical, firstWord_of_spells hs,
    hstream, hseconds, hpicos, hmiddle, List.append_assoc (beBytes 4 _)]

/-- The decoder returns every header it can, from that header's encoding. -/
theorem decode_encode_of_canonical {hd : Header} (hc : Canonical hd) :
    (hd.encode >>= decode) = .ok hd := by
  have henc : hd.encode = .ok (hd.encode.toOption.getD []) := by
    rw [encode, if_neg (Nat.not_le.mpr hc.picoseconds_lt)]
    rfl
  have hreads := reads_decoder henc hc.type_eq hc.trailer_data hc.size_ge
  have hcount : (hd.packetCount.toNat % 16).toUInt8 = hd.packetCount := by
    rw [Nat.mod_eq_of_lt hc.count_lt]
    exact UInt8.ofNat_toNat
  rw [hcount] at hreads
  rw [henc]
  show decode _ = _
  have := hreads.run' []
  rwa [List.append_nil] at this

/-- The header codec is a canonicalising retraction. Encoding then decoding gives back every
header with a count below sixteen, picoseconds below a second, the packet type of its stream, a
trailer only on IF data and a size that covers what its type needs; encoding a decoded header
gives its bytes' canonical form (word 0 with TSI 01, TSF 10, bits 27, 25 and 24 cleared and the
trailer bit kept on IF data only, and the picoseconds zeroed where TSF bit 21 was clear); and so
decoding, encoding and decoding again is decoding. -/
theorem codec_canonical :
    (∀ h : Header, h.packetCount.toNat ≤ 15 → h.timestamp.picoseconds.toNat < 10 ^ 12 →
      h.packetType = h.streamId.packetType → (h.hasTrailer = true → h.packetType = .ifData) →
      5 + (if h.hasTrailer then 1 else 0) + (if h.packetType = .ifData then 0 else 1) ≤
        h.packetSize.toNat →
      (h.encode >>= decode) = .ok h) ∧
    (∀ b h, decode b = .ok h → h.encode = .ok (canonical b)) ∧
    (∀ b, (decode b >>= fun h => h.encode >>= decode) = decode b) := by
  refine ⟨fun h hcount hpicos htype htrailer hsize =>
    decode_encode_of_canonical ⟨by omega, hpicos, htype, htrailer, hsize⟩,
    fun b h hdec => encode_of_decode hdec, fun b => ?_⟩
  rcases decode_cases b with ⟨e, -, he⟩ | ⟨-, hd, hdec, -, hc⟩
  · rw [he]
    rfl
  · rw [hdec]
    exact decode_encode_of_canonical hc

/-- An IF data header at the limits: count fifteen, a trailer, the size that just covers it, and
the last picosecond of a second. -/
theorem codec_canonical_limits :
    (({ packetType := .ifData, packetCount := 15, packetSize := 6, streamId := .i16,
        hasTrailer := true, timestamp := ⟨7, 999999999999⟩ } : Header).encode >>= decode) =
      .ok { packetType := .ifData, packetCount := 15, packetSize := 6, streamId := .i16,
            hasTrailer := true, timestamp := ⟨7, 999999999999⟩ } :=
  codec_canonical.1 _ (by decide) (by decide) rfl (fun _ => rfl) (by decide)

/-- Word 0 of a context header with a stray trailer bit, bits 27, 25 and 24 set, TSI 11 and TSF
00 is written back with those bits cleared and TSI 01, TSF 10. -/
example : canonicalTypeWord 0x4BF3_0006 = 0x4063_0006 := by decide

end Header

end SweptSpectrum.Vrt
