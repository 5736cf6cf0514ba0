import SweptSpectrum.Vrt.Packet

/-!
# Decoders that read back what was written

`Reads d bs a` says that the decoder `d`, started on any buffer that begins with `bs`, returns
`a` and leaves the cursor just past `bs`. It composes along `>>=` (`Reads.bind`), so a decoder
written as a `do` block is shown to read an encoding field by field. The word readers read
back the big-endian words of `Wire.beBytes`, and a signed word reads back the two's complement
of `Wire.ofSigned` (`toSigned_ofSigned`).

The indicator word of a context body says which fields follow: `withMask` sets or clears the
bits of one field and leaves the bits of every other field as they were.
-/

namespace SweptSpectrum.Vrt

open Wire

/-- `d` reads exactly `bs` from the front of any buffer and returns `a`. -/
def Reads {α : Type} (d : Decoder α) (bs : Bytes) (a : α) : Prop :=
  ∀ rest off size, d ⟨bs ++ rest, off, size⟩ = .ok (a, ⟨rest, off + bs.length, size⟩)

namespace Reads

variable {α β : Type}

theorem bind {d : Decoder α} {f : α → Decoder β} {bs bs' : Bytes} {a : α} {b : β}
    (hd : Reads d bs a) (hf : Reads (f a) bs' b) : Reads (d >>= f) (bs ++ bs') b := by
  intro rest off size
  have h1 := hd (bs' ++ rest) off size
  have h2 := hf rest (off + bs.length) size
  simp only [List.append_assoc]
  show (d ⟨bs ++ (bs' ++ rest), off, size⟩ >>= fun p => f p.1 p.2) = _
  rw [h1, List.length_append, ← Nat.add_assoc]
  exact h2

theorem pure (a : α) : Reads (Pure.pure a : Decoder α) [] a := by
  intro rest off size
  rfl

theorem pure_of_eq {a b : α} (h : a = b) : Reads (Pure.pure a : Decoder α) [] b :=
  h ▸ Reads.pure a

/-- A step that reads nothing more after `d`, such as a final `return`. -/
theorem bind_nil {d : Decoder α} {f : α → Decoder β} {bs : Bytes} {a : α} {b : β}
    (hd : Reads d bs a) (hf : Reads (f a) [] b) : Reads (d >>= f) bs b := by
  have h := hd.bind hf
  rwa [List.append_nil] at h

theorem map {d : Decoder α} {bs : Bytes} {a : α} (g : α → β) (hd : Reads d bs a) :
    Reads (g <$> d) bs (g a) := by
  intro rest off size
  show (d ⟨bs ++ rest, off, size⟩ >>= fun p => Pure.pure (g p.1, p.2)) = _
  rw [hd rest off size]
  rfl

theorem readIf_true {d : Decoder α} {bs : Bytes} {a : α} (hd : Reads d bs a) :
    Reads (readIf true d) bs (some a) :=
  hd.map some

theorem readIf_false (d : Decoder α) : Reads (readIf false d) [] none :=
  Reads.pure none

/-- An optional field: read when present, and then exactly its bytes. -/
theorem readIf_option {d : Decoder β} {o : Option α} {bytes : α → Bytes} {g : α → β}
    (hd : ∀ x, Reads d (bytes x) (g x)) : Reads (readIf o.isSome d) (o.elim [] bytes) (o.map g) := by
  cases o with
  | none => exact readIf_false d
  | some x => exact readIf_true (hd x)

/-- A decoder that reads a whole buffer's prefix succeeds on it. -/
theorem run' {d : Decoder α} {bs : Bytes} {a : α} (hd : Reads d bs a) (rest : Bytes) :
    d.run' (bs ++ rest) = .ok a := by
  simp only [Decoder.run', Cursor.start, StateT.run, hd rest 0 (bs ++ rest).length]
  rfl

end Reads

theorem reads_takeBytes {w : Nat} {bs : Bytes} (h : bs.length = w) : Reads (takeBytes w) bs bs := by
  intro rest off size
  subst h
  simp [takeBytes]

theorem reads_readWord (w v : Nat) : Reads (readWord w) (beBytes w v) (v % 2 ^ (8 * w)) := by
  have h : Reads (readWord w) (beBytes w v ++ []) (beValue (beBytes w v)) :=
    (reads_takeBytes (length_beBytes w v)).bind (Reads.pure _)
  rwa [List.append_nil, beValue_beBytes] at h

/-! ## Words -/

theorem ofSigned_lt (bits : Nat) (i : Int) : ofSigned bits i < 2 ^ bits := by
  have hpos : (0 : Int) < 2 ^ bits := Int.pow_pos (by decide)
  have hlt := Int.emod_lt_of_pos i hpos
  have hnn := Int.emod_nonneg i (Int.ne_of_gt hpos)
  have hcast : ((2 ^ bits : Nat) : Int) = 2 ^ bits := by simp
  unfold ofSigned
  omega

/-- Two's complement round trip: a value in the signed range of `bits` bits reads back. -/
theorem toSigned_ofSigned {bits : Nat} {i : Int} (hbits : 0 < bits)
    (hlo : -2 ^ (bits - 1) ≤ i) (hhi : i < 2 ^ (bits - 1)) : toSigned bits (ofSigned bits i) = i := by
  have hsplit : (2 : Int) ^ bits = 2 * 2 ^ (bits - 1) := by
    rw [← Int.pow_succ']
    congr 1
    omega
  have hhalf : (0 : Int) < 2 ^ (bits - 1) := Int.pow_pos (by decide)
  have hhalfNat : ((2 ^ (bits - 1) : Nat) : Int) = 2 ^ (bits - 1) := by simp
  unfold toSigned ofSigned
  rcases Int.lt_or_le i 0 with hneg | hnn
  · -- a negative value is held as `i + 2^bits`, in the upper half of the word
    have hmod : i % 2 ^ bits = i + 2 ^ bits := by
      rw [← Int.add_emod_right]
      exact Int.emod_eq_of_lt (by omega) (by omega)
    have hcast : ((i % 2 ^ bits).toNat : Int) = i + 2 ^ bits := by rw [hmod]; omega
    rw [if_neg (by omega), hcast]
    omega
  · have hmod : i % 2 ^ bits = i := Int.emod_eq_of_lt hnn (by omega)
    have hcast : ((i % 2 ^ bits).toNat : Int) = i := by rw [hmod]; omega
    rw [if_pos (by omega), hcast]

theorem reads_readSigned (w : Nat) (i : Int) (hw : 0 < w) (hlo : -2 ^ (8 * w - 1) ≤ i)
    (hhi : i < 2 ^ (8 * w - 1)) : Reads (readSigned w) (beBytes w (ofSigned (8 * w) i)) i := by
  have h : Reads (readSigned w) (beBytes w (ofSigned (8 * w) i) ++ [])
      (toSigned (8 * w) (ofSigned (8 * w) i % 2 ^ (8 * w))) :=
    (reads_readWord w (ofSigned (8 * w) i)).bind (Reads.pure _)
  rwa [List.append_nil, Nat.mod_eq_of_lt (ofSigned_lt _ _),
    toSigned_ofSigned (by omega) hlo hhi] at h

/-- A word of `m + n` bytes is its high `m` bytes, then its low `n` bytes. -/
theorem beBytes_add (m n v : Nat) : beBytes (m + n) v = beBytes m (v / 2 ^ (8 * n)) ++ beBytes n v := by
  induction n generalizing v with
  | zero => simp [beBytes]
  | succ n ih =>
    rw [← Nat.add_assoc, beBytes, ih, beBytes, List.append_assoc, Nat.div_div_eq_div_mul,
      show 8 * (n + 1) = 8 + 8 * n by omega, Nat.pow_add]

/-- Only the value modulo `2^(8 * width)` is written. -/
theorem beBytes_mod (width v : Nat) : beBytes width (v % 2 ^ (8 * width)) = beBytes width v := by
  induction width generalizing v with
  | zero => rfl
  | succ w ih =>
    have hdiv : v % 2 ^ (8 * (w + 1)) / 256 = v / 256 % 2 ^ (8 * w) := by
      rw [show 8 * (w + 1) = 8 * w + 8 by omega, Nat.pow_add, Nat.mul_comm,
        Nat.mod_mul_right_div_self]
    have hlow : v % 2 ^ (8 * (w + 1)) % 256 = v % 256 := by
      rw [show 8 * (w + 1) = 8 + 8 * w by omega, Nat.pow_add, Nat.mod_mul_right_mod]
    rw [beBytes, beBytes, hdiv, ih, hlow]

/-! ## Indicator bits -/

theorem hasMask_iff (indicator mask : Nat) :
    hasMask indicator mask = true ↔ ∀ j, mask.testBit j = true → indicator.testBit j = true := by
  simp only [hasMask, beq_iff_eq]
  constructor
  · intro h j hj
    have := congrArg (Nat.testBit · j) h
    simp only [Nat.testBit_and, hj, Bool.and_true] at this
    exact this
  · intro h
    apply Nat.eq_of_testBit_eq
    intro j
    rw [Nat.testBit_and]
    cases hj : mask.testBit j
    · simp
    · simp [h j hj]

/-- The bits a cleared mask keeps: those of the low 32 outside the mask. -/
theorem testBit_clearMask {mask : Nat} (hmask : mask < 2 ^ 32) (j : Nat) :
    (2 ^ 32 - 1 - mask).testBit j = (decide (j < 32) && !mask.testBit j) := by
  rw [Nat.sub_sub, Nat.add_comm, Nat.testBit_two_pow_sub_succ hmask]

theorem lt_of_testBit_mask {mask j : Nat} (hmask : mask < 2 ^ 32) (hj : mask.testBit j = true) :
    j < 32 := by
  apply Nat.lt_of_not_le
  intro hge
  rw [Nat.testBit_lt_two_pow (Nat.lt_of_lt_of_le hmask (Nat.pow_le_pow_right (by omega) hge))] at hj
  exact Bool.false_ne_true hj

/-- `withMask` leaves every bit outside its mask as it was. -/
theorem testBit_withMask {indicator other j : Nat} (present : Bool) (hother : other < 2 ^ 32)
    (hj : j < 32) (hout : other.testBit j = false) :
    (withMask indicator other present).testBit j = indicator.testBit j := by
  cases present
  · rw [withMask, if_neg Bool.false_ne_true, Nat.testBit_and, testBit_clearMask hother]
    simp [hj, hout]
  · rw [withMask, if_pos rfl, Nat.testBit_or, hout, Bool.or_false]

theorem hasMask_withMask_self (indicator mask : Nat) (present : Bool) (hmask : mask < 2 ^ 32)
    (hne : mask ≠ 0) : hasMask (withMask indicator mask present) mask = present := by
  cases present with
  | true => exact hasMask_withMask_true indicator mask
  | false =>
    -- the mask has a bit, and clearing removes it
    obtain ⟨j, -, hj⟩ := Nat.exists_ge_and_testBit_of_ge_two_pow (by omega : mask ≥ 2 ^ 0)
    apply Bool.eq_false_iff.mpr
    intro h
    have := (hasMask_iff _ _).mp h j hj
    rw [withMask, if_neg Bool.false_ne_true, Nat.testBit_and, testBit_clearMask hmask] at this
    simp [hj] at this

theorem hasMask_withMask_of_disjoint (indicator mask other : Nat) (present : Bool)
    (hmask : mask < 2 ^ 32) (hother : other < 2 ^ 32) (hdisj : other &&& mask = 0) :
    hasMask (withMask indicator other present) mask = hasMask indicator mask := by
  apply Bool.eq_iff_iff.mpr
  rw [hasMask_iff, hasMask_iff]
  apply forall_congr'
  intro j
  apply imp_congr_right
  intro hj
  have hout : other.testBit j = false := by
    have := congrArg (Nat.testBit · j) hdisj
    simpa [Nat.testBit_and, hj] using this
  rw [testBit_withMask present hother (lt_of_testBit_mask hmask hj) hout]

/-! ## Headers -/

theorem PacketType.code_le (t : PacketType) : t.code ≤ 5 := by
  cases t <;> decide

theorem StreamId.value_lt (s : StreamId) : s.value < 2 ^ 32 := by
  cases s <;> decide

/-- Each field of a header's first word sits where the decoder looks for it. -/
theorem Header.firstWord_fields (h : Header) :
    h.firstWord < 2 ^ 32 ∧ h.firstWord / 2 ^ 28 = h.packetType.code ∧
      h.firstWord / 2 ^ 16 % 16 = h.packetCount.toNat % 16 ∧
      h.firstWord % 2 ^ 16 = h.packetSize.toNat ∧
      h.firstWord.testBit 22 = true ∧ h.firstWord.testBit Header.picosBit = true ∧
      h.firstWord.testBit Header.trailerBit = h.hasTrailer := by
  have hcode := PacketType.code_le h.packetType
  have hsize := h.packetSize.toNat_lt
  have hcount := Nat.mod_lt h.packetCount.toNat (by decide : 16 > 0)
  simp only [Header.firstWord, Header.utcBit, Header.picosBit, Header.trailerBit,
    Nat.testBit_eq_decide_div_mod_eq]
  cases h.hasTrailer <;> simp only [if_true, if_false, Bool.false_eq_true] <;>
    refine ⟨by omega, by omega, by omega, by omega, by simp only [decide_eq_true_eq]; omega,
      by simp only [decide_eq_true_eq]; omega,
      by simp only [decide_eq_true_eq, decide_eq_false_iff_not]; omega⟩

/-- A header its encoder accepts reads back when it has its stream's packet type, a trailer
only on data, and a size its decoder accepts; the count comes back modulo 16. -/
theorem Header.reads_decoder {h : Header} {bs : Bytes} (henc : h.encode = .ok bs)
    (htype : h.packetType = h.streamId.packetType)
    (htrailer : h.hasTrailer = true → h.packetType = .ifData)
    (hsize : Header.minimumWords h.packetType h.hasTrailer ≤ h.packetSize.toNat) :
    Reads Header.decoder bs { h with packetCount := (h.packetCount.toNat % 16).toUInt8 } := by
  unfold Header.encode at henc
  split at henc
  · cases henc
  rename_i hpicos
  cases henc
  obtain ⟨hlt, hcode, hcount, hsize', hutc, hpicosBit, htr⟩ := h.firstWord_fields
  have hfw : h.firstWord % 2 ^ (8 * 4) = h.firstWord := Nat.mod_eq_of_lt hlt
  have hsv : h.streamId.value % 2 ^ (8 * 4) = h.streamId.value :=
    Nat.mod_eq_of_lt h.streamId.value_lt
  simp only [List.append_assoc]
  -- the type and stream words, and the checks made on them
  refine (reads_readWord 4 h.firstWord).bind ?_
  refine (reads_readWord 4 h.streamId.value).bind ?_
  simp only [hfw, hsv, hcode, PacketType.ofCode?_code, StreamId.ofValue?_value, htype, ne_eq,
    not_true_eq_false, if_false, hutc, hpicosBit, Bool.true_or, Bool.not_true, Bool.false_eq_true,
    if_true]
  -- the timestamp words, then the checks of the picoseconds and of the size
  refine (reads_readWord 4 h.timestamp.seconds.toNat).bind ?_
  refine (reads_readWord 8 h.timestamp.picoseconds.toNat).bind ?_
  have hsec : h.timestamp.seconds.toNat % 2 ^ (8 * 4) = h.timestamp.seconds.toNat :=
    Nat.mod_eq_of_lt h.timestamp.seconds.toNat_lt
  have hps : h.timestamp.picoseconds.toNat % 2 ^ (8 * 8) = h.timestamp.picoseconds.toNat :=
    Nat.mod_eq_of_lt h.timestamp.picoseconds.toNat_lt
  have hdata : (decide (h.packetType = .ifData) && h.hasTrailer) = h.hasTrailer := by
    cases ht : h.hasTrailer
    · simp
    · simp [htrailer ht]
  rw [← htype]
  simp only [hsec, hps, if_neg hpicos, htr, hdata, hsize', if_neg (Nat.not_lt.mpr hsize)]
  refine Reads.pure_of_eq ?_
  simp only [hcount]
  simp

end SweptSpectrum.Vrt
