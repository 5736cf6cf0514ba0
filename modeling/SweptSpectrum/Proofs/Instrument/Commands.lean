import Mathlib.Data.String.Basic
import SweptSpectrum.Instrument.Simulator

/-!
# The loader's commands on the simulator

The loader writes a plan as SCPI texts: a command word, a space and an argument, with numbers
printed in decimal and frequencies followed by a `Hz` unit. The simulator splits each text at
its first space, uppercases the word and reads the argument back. A printed number reads back as
itself, so every command the loader sends does to the simulator what its name says, from any
state, and loading a plan leaves the plan's entries, one iteration, the attenuation and the mode
in the simulator, with the sweep stopped and the data queue empty.
-/

namespace SweptSpectrum.Text

open String

/-! ## Splitting at one character -/

theorem singleton_positions (c : Char) : Pos.Raw.get (singleton c) 0 = c ∧
    Pos.Raw.next (singleton c) 0 = ⟨c.utf8Size⟩ ∧ (singleton c).rawEndPos = ⟨c.utf8Size⟩ := by
  rw [String.singleton_eq_ofList]
  refine ⟨get_of_valid [] [c], ?_, ?_⟩
  · simpa using next_of_valid [] c []
  · rw [rawEndPos_ofList]
    simp

/-- The search behind `splitOn` with a one-character separator, from a position past the pieces
already cut (`l`) and the piece being read (`m`). -/
theorem splitOnAux_singleton (c : Char) (l m r : List Char) (acc : List String) :
    splitOnAux (ofList (l ++ m ++ r)) (singleton c) ⟨utf8Len l⟩ ⟨utf8Len l + utf8Len m⟩ 0 acc =
      acc.reverse ++ (List.splitOnPPrepend (· == c) r m.reverse).map ofList := by
  obtain ⟨hsep, hsepNext, hsepEnd⟩ := singleton_positions c
  rw [splitOnAux]
  simp only [List.append_assoc, atEnd_iff, rawEndPos_ofList, utf8Len_append, Pos.Raw.mk_le_mk,
    Nat.add_le_add_iff_left, (by omega : utf8Len m + utf8Len r ≤ utf8Len m ↔ utf8Len r = 0),
    utf8Len_eq_zero]
  split
  · -- at the end: the piece being read is the last one
    subst r
    simpa using extract_of_valid l m []
  · obtain ⟨d, r, rfl⟩ := r.exists_cons_of_ne_nil ‹_›
    have hget := get_of_valid (l ++ m) (d :: r)
    have hnext := next_of_valid (l ++ m) d r
    simp only [List.append_assoc, utf8Len_append] at hget hnext
    simp only [hget, hnext, hsep, hsepNext, hsepEnd, Pos.Raw.le_iff, le_refl, if_true,
      List.headD_cons, List.splitOnPPrepend_cons_eq_if]
    by_cases hd : d = c
    · -- the separator ends the piece, and the search restarts past it
      subst hd
      simp only [beq_self_eq_true, if_true, Pos.Raw.unoffsetBy, Nat.add_sub_cancel]
      have hpiece := extract_of_valid l m (d :: r)
      simp only [List.append_assoc] at hpiece
      rw [hpiece]
      simpa [Nat.add_assoc] using splitOnAux_singleton d (l ++ m ++ [d]) [] r (ofList m :: acc)
    · have hne : (d == c) = false := by simpa using hd
      have h0 : (0 : Pos.Raw).byteIdx = 0 := rfl
      simp only [hne, Bool.false_eq_true, if_false, Pos.Raw.unoffsetBy, h0, Nat.sub_zero, hnext]
      simpa [Nat.add_assoc] using splitOnAux_singleton c l (m ++ [d]) r acc

/-- Splitting a string at a one-character separator splits its characters. -/
theorem splitOn_singleton (s : String) (c : Char) :
    s.splitOn (singleton c) = (s.toList.splitOn c).map ofList := by
  have h := splitOnAux_singleton c [] [] s.toList []
  simp only [List.nil_append, utf8Len_nil, Nat.add_zero, ofList_toList] at h
  rw [String.splitOn, if_neg (by simp [← String.toList_inj]), List.splitOn_eq_splitOnP]
  simpa using h

/-! ## Trimming and reading numbers -/

theorem isBlank_of_isDigit {c : Char} (h : c.isDigit = true) : isBlank c = false := by
  simp only [Char.isDigit, Bool.and_eq_true, decide_eq_true_eq] at h
  have h₁ : 48 ≤ c.toNat := h.1
  have h₂ : c.toNat ≤ 57 := h.2
  simp only [isBlank]
  grind

theorem dropWhile_blank {pre cs : List Char} (hpre : ∀ c ∈ pre, isBlank c = true)
    (hcs : ∀ c ∈ cs.head?, isBlank c = false) : (pre ++ cs).dropWhile isBlank = cs := by
  induction pre with
  | nil =>
    cases cs with
    | nil => rfl
    | cons c cs => simp_all
  | cons b pre ih =>
    rw [List.cons_append, List.dropWhile_cons_of_pos (hpre b List.mem_cons_self)]
    exact ih fun c hc => hpre c (List.mem_cons_of_mem b hc)

/-- Trimming drops blanks around text that neither starts nor ends with one. -/
theorem trim_pad {pre cs post : List Char} (hpre : ∀ c ∈ pre, isBlank c = true)
    (hpost : ∀ c ∈ post, isBlank c = true) (hne : cs ≠ [])
    (hhead : ∀ c ∈ cs.head?, isBlank c = false) (hlast : ∀ c ∈ cs.getLast?, isBlank c = false) :
    trim (ofList (pre ++ cs ++ post)) = ofList cs := by
  have hfront : (pre ++ cs ++ post).dropWhile isBlank = cs ++ post := by
    rw [List.append_assoc]
    apply dropWhile_blank hpre
    obtain ⟨c, cs, rfl⟩ := List.exists_cons_of_ne_nil hne
    exact hhead
  have hback : (post.reverse ++ cs.reverse).dropWhile isBlank = cs.reverse := by
    apply dropWhile_blank (by simpa using hpost)
    simpa [List.head?_reverse] using hlast
  rw [trim, toList_ofList, hfront, List.reverse_append, hback, List.reverse_reverse]

theorem readDigits_digits (bound : ℕ) :
    ∀ (cs : List Char) (acc : ℕ), (∀ c ∈ cs, c.isDigit = true) →
      Nat.ofDigitChars 10 cs acc ≤ bound → readDigits bound acc cs = .ok (Nat.ofDigitChars 10 cs acc)
  | [], acc, _, _ => rfl
  | c :: cs, acc, hd, hle => by
    rw [Nat.ofDigitChars_cons] at hle ⊢
    -- every prefix reads to at most the whole number
    have hstep : acc * 10 + (c.toNat - '0'.toNat) ≤ bound := by
      have hgrow : Nat.ofDigitChars 10 cs (10 * acc + (c.toNat - '0'.toNat)) =
          10 ^ cs.length * (10 * acc + (c.toNat - '0'.toNat)) + Nat.ofDigitChars 10 cs 0 :=
        Nat.ofDigitChars_eq_ofDigitChars_zero
      have hpow : 1 ≤ 10 ^ cs.length := Nat.one_le_pow _ _ (by decide)
      have hmul := Nat.le_mul_of_pos_left (10 * acc + (c.toNat - '0'.toNat)) hpow
      rw [Nat.mul_comm acc]
      omega
    rw [readDigits, if_pos (hd c List.mem_cons_self), if_neg (Nat.not_lt.mpr hstep),
      Nat.mul_comm acc]
    exact readDigits_digits bound cs _ (fun d hd' => hd d (List.mem_cons_of_mem c hd')) hle

/-- A number printed in decimal reads back as itself. -/
theorem parseUnsigned_toString {bound n : ℕ} (h : n ≤ bound) :
    parseUnsigned bound (toString n) = .ok n := by
  have hdigits : ∀ c ∈ Nat.toDigits 10 n, c.isDigit = true :=
    fun c hc => Nat.isDigit_of_mem_toDigits (by decide) (by decide) hc
  have hread := readDigits_digits bound (Nat.toDigits 10 n) 0 hdigits
    (by rw [Nat.ofDigitChars_ten_toDigits]; exact h)
  rw [Nat.ofDigitChars_ten_toDigits] at hread
  rw [parseUnsigned, Nat.toString_eq_repr, Nat.toList_repr]
  -- the first digit is neither a sign nor missing
  obtain ⟨d, ds, hds⟩ := List.exists_cons_of_ne_nil (@Nat.toDigits_ne_nil n 10)
  have hd : d.isDigit = true := hdigits d (by rw [hds]; exact List.mem_cons_self)
  have hplus : d ≠ '+' := fun h => by subst h; contradiction
  have hminus : d ≠ '-' := fun h => by subst h; contradiction
  rw [hds] at hread ⊢
  split
  · contradiction
  · rename_i h; cases h; contradiction
  · rename_i h; cases h; contradiction
  · rename_i h; cases h; contradiction
  · exact hread

end SweptSpectrum.Text

namespace SweptSpectrum.Instrument

open Sweep Text

/-! ## Splitting a command at its first space -/

theorem splitCommand_word {cmd : String} (h : ' ' ∉ cmd.toList) :
    Simulator.splitCommand cmd = (cmd, "") := by
  apply Simulator.splitCommand_single
  rw [show (" " : String) = String.singleton ' ' by decide, splitOn_singleton,
    List.splitOn_eq_singleton h]
  simp

theorem splitCommand_arg {cmd head arg : String} (h : cmd.toList = head.toList ++ ' ' :: arg.toList)
    (hhead : ' ' ∉ head.toList) (harg : trim arg = arg) :
    Simulator.splitCommand cmd = (head, arg) := by
  obtain ⟨p, ps, hps⟩ := List.exists_cons_of_ne_nil (List.splitOn_ne_nil ' ' arg.toList)
  have hsplit : cmd.splitOn " " = head :: String.ofList p :: ps.map String.ofList := by
    rw [show (" " : String) = String.singleton ' ' by decide, splitOn_singleton, h,
      List.splitOn_append_cons_self_of_not_mem hhead, hps]
    simp
  -- the rest, joined again at its spaces, is the argument
  have hjoin : " ".intercalate (String.ofList p :: ps.map String.ofList) = arg := by
    rw [← String.toList_inj, String.toList_intercalate]
    have hback : [' '].intercalate (arg.toList.splitOn ' ') = arg.toList := List.intercalate_splitOn ' '
    rw [hps] at hback
    simpa using hback
  rw [Simulator.splitCommand, hsplit]
  simp only [hjoin, harg]

theorem toString_digits (n : ℕ) :
    (toString n).toList ≠ [] ∧ ∀ c ∈ (toString n).toList, c.isDigit = true := by
  rw [Nat.toString_eq_repr, Nat.toList_repr]
  exact ⟨Nat.toDigits_ne_nil, fun c hc => Nat.isDigit_of_mem_toDigits (by decide) (by decide) hc⟩

theorem trim_number {pre post : List Char} (hpre : ∀ c ∈ pre, isBlank c = true)
    (hpost : ∀ c ∈ post, isBlank c = true) (n : ℕ) :
    trim (String.ofList (pre ++ (toString n).toList ++ post)) = toString n := by
  obtain ⟨hne, hdig⟩ := toString_digits n
  rw [trim_pad hpre hpost hne, String.ofList_toList]
  · exact fun c hc => isBlank_of_isDigit (hdig c (List.mem_of_mem_head? hc))
  · exact fun c hc => isBlank_of_isDigit (hdig c (List.mem_of_mem_getLast? hc))

/-! ## Reading arguments -/

/-- A computation over a command channel that succeeds with `a`, leaving the state `s'`. -/
theorem run_bind_ok {σ α β : Type} {x : Control σ α} {f : α → Control σ β} {s s' : σ} {a : α}
    (h : x.run.run s = (.ok a, s')) : (x >>= f).run.run s = (f a).run.run s' := by
  simp only [ExceptT.run_bind, StateT.run_bind, h]
  rfl

theorem parseArg_number {cmd : String} {pre post : List Char} (hpre : ∀ c ∈ pre, isBlank c = true)
    (hpost : ∀ c ∈ post, isBlank c = true) {n bound : ℕ} (h : n ≤ bound) (s : Simulator) :
    (Simulator.parseArg cmd (String.ofList (pre ++ (toString n).toList ++ post)) bound).run.run s =
      (.ok n, s) := by
  simp only [Simulator.parseArg, trim_number hpre hpost, parseUnsigned_toString h]
  rfl

theorem stripSuffix?_append (s t : String) : stripSuffix? (s ++ t) t = some s := by
  have hsuffix : t.toList.isSuffixOf (s ++ t).toList = true := by
    rw [String.toList_append, List.isSuffixOf_iff_suffix]
    exact List.suffix_append s.toList t.toList
  rw [stripSuffix?, if_pos hsuffix, String.toList_append, List.length_append, Nat.add_sub_cancel,
    List.take_left, String.ofList_toList]

/-- A frequency printed in hertz, after blanks, reads back as itself. -/
theorem parseHz_number {cmd : String} {pre : List Char} (hpre : ∀ c ∈ pre, isBlank c = true)
    {n : ℕ} (h : n ≤ maxU64) (s : Simulator) :
    (Simulator.parseHz cmd (String.ofList (pre ++ (toString n).toList ++ " Hz".toList))).run.run s =
      (.ok n, s) := by
  obtain ⟨hne, hdig⟩ := toString_digits n
  have hunit : " Hz".toList = [' ', 'H', 'z'] := rfl
  -- the unit is dropped first, then the blank before it
  have htrim : trim (String.ofList (pre ++ (toString n).toList ++ " Hz".toList)) =
      (toString n ++ " ") ++ "Hz" := by
    rw [← List.append_nil (pre ++ _ ++ _), List.append_assoc pre, trim_pad hpre (by simp)]
    · rw [String.append_assoc, ← String.toList_inj]
      simp
    · simp
    · intro c hc
      rw [List.head?_append_of_ne_nil _ hne] at hc
      exact isBlank_of_isDigit (hdig c (List.mem_of_mem_head? hc))
    · intro c hc
      rw [hunit, List.getLast?_append_of_ne_nil _ (by simp)] at hc
      cases hc
      decide
  have hstrip : String.ofList ([] ++ (toString n).toList ++ [' ']) = toString n ++ " " := by
    rw [← String.toList_inj]
    simp
  unfold Simulator.parseHz
  dsimp only
  rw [htrim, stripSuffix?_append]
  simp only [Option.orElse_some, Option.getD_some]
  rw [← hstrip]
  exact parseArg_number (by simp) (by simp [isBlank]) h s

theorem parseArg_toString {cmd : String} {n bound : ℕ} (h : n ≤ bound) (s : Simulator) :
    (Simulator.parseArg cmd (toString n) bound).run.run s = (.ok n, s) := by
  have hnum := @parseArg_number cmd [] [] (by simp) (by simp) n bound h s
  rwa [List.nil_append, List.append_nil, String.ofList_toList] at hnum

/-! ## Splitting the loader's commands -/

/-- A command word, a space and a printed number: the text is already trimmed, and it splits
into the word and the number. -/
theorem command_number (pfx word : String) (hpfx : pfx.toList = word.toList ++ [' '])
    (hword : ' ' ∉ word.toList) (hne : word.toList ≠ [])
    (hhead : ∀ c ∈ word.toList.head?, isBlank c = false) (n : ℕ) :
    trim (pfx ++ toString n) = pfx ++ toString n ∧
      Simulator.splitCommand (pfx ++ toString n) = (word, toString n) := by
  obtain ⟨hdne, hdig⟩ := toString_digits n
  have hlist : (pfx ++ toString n).toList = word.toList ++ ' ' :: (toString n).toList := by
    simp [hpfx]
  refine ⟨?_, splitCommand_arg hlist hword ?_⟩
  · have h := @trim_pad [] (pfx ++ toString n).toList [] (by simp)
      (by simp) (by simp) ?_ ?_
    · rwa [List.nil_append, List.append_nil, String.ofList_toList] at h
    · intro c hc
      rw [hlist, List.head?_append_of_ne_nil _ hne] at hc
      exact hhead c hc
    · intro c hc
      rw [hlist, List.getLast?_append_of_ne_nil _ (by simp), List.getLast?_cons] at hc
      obtain ⟨d, hd, rfl⟩ : ∃ d ∈ (toString n).toList.getLast?, c = d := by
        cases hl : (toString n).toList.getLast? with
        | none => simp_all
        | some d => simp_all
      exact isBlank_of_isDigit (hdig c (List.mem_of_mem_getLast? hd))
  · have h := @trim_number [] [] (by simp) (by simp) n
    rwa [List.nil_append, List.append_nil, String.ofList_toList] at h

/-! ## What each of the loader's commands does -/

theorem send_run (cmd : String) (s : Simulator) :
    (send cmd : Control Simulator Unit).run.run s =
      (Simulator.execute (trim cmd)).run.run { s with history := s.history.push (trim cmd) } :=
  rfl

theorem reset_run (s : Simulator) :
    (reset : Control Simulator Unit).run.run s =
      (.ok (), { s with history := s.history.push "*RST", entries := #[], editing := {},
                        iterations := 1, mode := none, running := false }) := by
  rw [reset, send_run, show trim "*RST" = "*RST" by decide, Simulator.execute,
    splitCommand_word (by decide)]
  simp only [show toUpperFull "*RST" = "*RST" by decide]
  rfl

theorem flush_run (s : Simulator) :
    (flush : Control Simulator Unit).run.run s =
      (.ok (), { s with history := s.history.push "SYSTEM:FLUSH", queue := #[], head := 0 }) := by
  rw [flush, send_run, show trim "SYSTEM:FLUSH" = "SYSTEM:FLUSH" by decide, Simulator.execute,
    splitCommand_word (by decide)]
  simp only [show toUpperFull "SYSTEM:FLUSH" = "SYSTEM:FLUSH" by decide]
  rfl

theorem abort_run (s : Simulator) :
    (abort : Control Simulator Unit).run.run s =
      (.ok (), { s with history := s.history.push "SYSTEM:ABORT", running := false }) := by
  rw [abort, send_run, show trim "SYSTEM:ABORT" = "SYSTEM:ABORT" by decide, Simulator.execute,
    splitCommand_word (by decide)]
  simp only [show toUpperFull "SYSTEM:ABORT" = "SYSTEM:ABORT" by decide]
  rfl

theorem clearAllEntries_run (s : Simulator) :
    (clearAllEntries : Control Simulator Unit).run.run s =
      (.ok (), { s with history := s.history.push "SWEEP:ENTRY:DELETE ALL", entries := #[] }) := by
  rw [clearAllEntries, send_run,
    show trim "SWEEP:ENTRY:DELETE ALL" = "SWEEP:ENTRY:DELETE ALL" by decide, Simulator.execute,
    show Simulator.splitCommand "SWEEP:ENTRY:DELETE ALL" = ("SWEEP:ENTRY:DELETE", "ALL") from
      splitCommand_arg (by decide) (by decide) (by decide)]
  simp only [show toUpperFull "SWEEP:ENTRY:DELETE" = "SWEEP:ENTRY:DELETE" by decide]
  rfl

theorem newEntry_run (s : Simulator) :
    (newEntry : Control Simulator Unit).run.run s =
      (.ok (), { s with history := s.history.push "SWEEP:ENTRY:NEW", editing := {} }) := by
  rw [newEntry, send_run, show trim "SWEEP:ENTRY:NEW" = "SWEEP:ENTRY:NEW" by decide,
    Simulator.execute, splitCommand_word (by decide)]
  simp only [show toUpperFull "SWEEP:ENTRY:NEW" = "SWEEP:ENTRY:NEW" by decide]
  rfl

theorem saveEntry_run (s : Simulator) :
    (saveEntry : Control Simulator Unit).run.run s =
      (.ok (), { s with history := s.history.push "SWEEP:ENTRY:SAVE",
                        entries := s.entries.push s.editing }) := by
  rw [saveEntry, send_run, show trim "SWEEP:ENTRY:SAVE" = "SWEEP:ENTRY:SAVE" by decide,
    Simulator.execute, splitCommand_word (by decide)]
  simp only [show toUpperFull "SWEEP:ENTRY:SAVE" = "SWEEP:ENTRY:SAVE" by decide]
  rfl

theorem setIteration_run {n : ℕ} (h : n ≤ maxUnsigned 32) (s : Simulator) :
    (setIteration n : Control Simulator Unit).run.run s =
      (.ok (), { s with history := s.history.push ("SWEEP:LIST:ITER " ++ toString n),
                        iterations := n }) := by
  obtain ⟨htrim, hsplit⟩ := command_number "SWEEP:LIST:ITER " "SWEEP:LIST:ITER"
    (by decide) (by decide) (by decide) (by simp [isBlank]) n
  show (send ("SWEEP:LIST:ITER " ++ toString n) : Control Simulator Unit).run.run s = _
  rw [send_run, htrim, Simulator.execute, hsplit]
  simp only [show toUpperFull "SWEEP:LIST:ITER" = "SWEEP:LIST:ITER" by decide]
  rw [run_bind_ok (parseArg_toString h _)]
  rfl

theorem setAttenuation_run (d : Descriptor) {n : ℕ} (h : n ≤ maxUnsigned 32) (s : Simulator) :
    (setAttenuation d n : Control Simulator Unit).run.run s =
      (.ok (), { s with history := s.history.push ((if d.hasStepAttenuator then "SWEEP:ENTRY:ATT "
                          else "SWEEP:ENTRY:ATT:VAR ") ++ toString n),
                        attenuation := some n }) := by
  unfold setAttenuation
  -- the step attenuator and the variable one take the same argument
  split
  · obtain ⟨htrim, hsplit⟩ := command_number "SWEEP:ENTRY:ATT " "SWEEP:ENTRY:ATT"
        (by decide) (by decide) (by decide) (by simp [isBlank]) n
    show (send ("SWEEP:ENTRY:ATT " ++ toString n) : Control Simulator Unit).run.run s = _
    rw [send_run, htrim, Simulator.execute, hsplit]
    simp only [show toUpperFull "SWEEP:ENTRY:ATT" = "SWEEP:ENTRY:ATT" by decide]
    rw [run_bind_ok (parseArg_toString h _)]
    rfl
  · obtain ⟨htrim, hsplit⟩ := command_number "SWEEP:ENTRY:ATT:VAR " "SWEEP:ENTRY:ATT:VAR"
        (by decide) (by decide) (by decide) (by simp [isBlank]) n
    show (send ("SWEEP:ENTRY:ATT:VAR " ++ toString n) : Control Simulator Unit).run.run s = _
    rw [send_run, htrim, Simulator.execute, hsplit]
    simp only [show toUpperFull "SWEEP:ENTRY:ATT:VAR" = "SWEEP:ENTRY:ATT:VAR" by decide]
    rw [run_bind_ok (parseArg_toString h _)]
    rfl

/-- Every mode's name reads back as the mode. -/
theorem RfeMode.parse_name_eq (m : RfeMode) : RfeMode.parse m.name = .ok m := by
  have hkey : toUpperFull (trim m.name) = m.name := by
    cases m <;> decide
  rw [RfeMode.parse]
  simp only [hkey, RfeMode.parse_name]

theorem setMode_run (m : RfeMode) (s : Simulator) :
    (setMode m : Control Simulator Unit).run.run s =
      (.ok (), { s with history := s.history.push ("SWEEP:ENTRY:MODE " ++ m.name),
                        mode := some m }) := by
  have htrim : trim ("SWEEP:ENTRY:MODE " ++ m.name) = "SWEEP:ENTRY:MODE " ++ m.name := by
    cases m <;> decide
  have hsplit : Simulator.splitCommand ("SWEEP:ENTRY:MODE " ++ m.name) =
      ("SWEEP:ENTRY:MODE", m.name) := by
    apply splitCommand_arg _ (by decide)
    · cases m <;> decide
    · cases m <;> decide
  rw [setMode, send_run, htrim, Simulator.execute, hsplit]
  simp only [show toUpperFull "SWEEP:ENTRY:MODE" = "SWEEP:ENTRY:MODE" by decide,
    RfeMode.parse_name_eq]
  rfl

theorem start_run (s : Simulator) :
    (start : Control Simulator Unit).run.run s =
      Simulator.startSweep.run.run { s with history := s.history.push "SWEEP:LIST:START" } := by
  rw [start, send_run, show trim "SWEEP:LIST:START" = "SWEEP:LIST:START" by decide,
    Simulator.execute, splitCommand_word (by decide)]
  simp only [show toUpperFull "SWEEP:LIST:START" = "SWEEP:LIST:START" by decide]

theorem setSamplesPerPacket_run {n : ℕ} (h : n ≤ maxU64) (s : Simulator) :
    (setSamplesPerPacket n : Control Simulator Unit).run.run s =
      (.ok (), { s with history := s.history.push ("SWEEP:ENTRY:SPPACKET " ++ toString n),
                        editing := { s.editing with spp := n } }) := by
  obtain ⟨htrim, hsplit⟩ := command_number "SWEEP:ENTRY:SPPACKET " "SWEEP:ENTRY:SPPACKET"
      (by decide) (by decide) (by decide) (by simp [isBlank]) n
  show (send ("SWEEP:ENTRY:SPPACKET " ++ toString n) : Control Simulator Unit).run.run s = _
  rw [send_run, htrim, Simulator.execute, hsplit]
  simp only [show toUpperFull "SWEEP:ENTRY:SPPACKET" = "SWEEP:ENTRY:SPPACKET" by decide]
  rw [run_bind_ok (parseArg_toString h _)]
  rfl

theorem setPacketsPerBlock_run {n : ℕ} (h : n ≤ maxUnsigned 32) (s : Simulator) :
    (setPacketsPerBlock n : Control Simulator Unit).run.run s =
      (.ok (), { s with history := s.history.push ("SWEEP:ENTRY:PPBLOCK " ++ toString n),
                        editing := { s.editing with ppb := n } }) := by
  obtain ⟨htrim, hsplit⟩ := command_number "SWEEP:ENTRY:PPBLOCK " "SWEEP:ENTRY:PPBLOCK"
      (by decide) (by decide) (by decide) (by simp [isBlank]) n
  show (send ("SWEEP:ENTRY:PPBLOCK " ++ toString n) : Control Simulator Unit).run.run s = _
  rw [send_run, htrim, Simulator.execute, hsplit]
  simp only [show toUpperFull "SWEEP:ENTRY:PPBLOCK" = "SWEEP:ENTRY:PPBLOCK" by decide]
  rw [run_bind_ok (parseArg_toString h _)]
  rfl

/-- A text that neither starts nor ends with a blank is its own trimmed form. -/
theorem trim_of_ends {s : String} (hne : s.toList ≠ [])
    (hhead : ∀ c ∈ s.toList.head?, isBlank c = false)
    (hlast : ∀ c ∈ s.toList.getLast?, isBlank c = false) : trim s = s := by
  have h := @trim_pad [] s.toList [] (by simp) (by simp) hne hhead hlast
  rwa [List.nil_append, List.append_nil, String.ofList_toList] at h

theorem not_mem_digits {c : Char} (hc : c.isDigit = false) (n : ℕ) : c ∉ (toString n).toList :=
  fun hmem => by rw [(toString_digits n).2 c hmem] at hc; cases hc

theorem isBlank_getLast_hz (xs : List Char) :
    ∀ c ∈ (xs ++ " Hz".toList).getLast?, isBlank c = false := by
  intro c hc
  rw [show " Hz".toList = [' ', 'H', 'z'] from rfl, List.getLast?_append_of_ne_nil _ (by simp)] at hc
  cases hc
  decide

theorem setStep_run {n : ℕ} (h : n ≤ maxU64) (s : Simulator) :
    (setStep n : Control Simulator Unit).run.run s =
      (.ok (), { s with history := s.history.push ("SWEEP:ENTRY:FREQ:STEP " ++ toString n ++ " Hz"),
                        editing := { s.editing with fstep := n } }) := by
  obtain ⟨hne, hdig⟩ := toString_digits n
  have hlist : ("SWEEP:ENTRY:FREQ:STEP " ++ toString n ++ " Hz").toList =
      "SWEEP:ENTRY:FREQ:STEP".toList ++ ' ' :: (toString n ++ " Hz").toList := by
    simp
  have hlast := isBlank_getLast_hz (toString n).toList
  have harg : trim (toString n ++ " Hz") = toString n ++ " Hz" := by
    apply trim_of_ends (by simp)
    · intro c hc
      rw [String.toList_append, List.head?_append_of_ne_nil _ hne] at hc
      exact isBlank_of_isDigit (hdig c (List.mem_of_mem_head? hc))
    · simpa using hlast
  have htrim : trim ("SWEEP:ENTRY:FREQ:STEP " ++ toString n ++ " Hz") =
      "SWEEP:ENTRY:FREQ:STEP " ++ toString n ++ " Hz" := by
    apply trim_of_ends (by simp)
    · rw [hlist, List.head?_append_of_ne_nil _ (by decide)]
      simp [isBlank]
    · rw [hlist, List.getLast?_append_of_ne_nil _ (by simp), List.getLast?_cons]
      simpa [List.getLast?_append] using hlast
  have hsplit := splitCommand_arg hlist (by decide) harg
  have hform : toString n ++ " Hz" = String.ofList ([] ++ (toString n).toList ++ " Hz".toList) := by
    rw [← String.toList_inj]
    simp
  show (send ("SWEEP:ENTRY:FREQ:STEP " ++ toString n ++ " Hz") : Control Simulator Unit).run.run s = _
  rw [send_run, htrim, Simulator.execute, hsplit]
  simp only [show toUpperFull "SWEEP:ENTRY:FREQ:STEP" = "SWEEP:ENTRY:FREQ:STEP" by decide]
  rw [hform, run_bind_ok (parseHz_number (by simp) h _)]
  rfl

theorem modify_run {σ : Type} (f : σ → σ) (s : σ) :
    (modify f : Control σ Unit).run.run s = (.ok (), f s) := rfl

theorem setCenterRange_run {a b : ℕ} (ha : a ≤ maxU64) (hb : b ≤ maxU64) (s : Simulator) :
    (setCenterRange a b : Control Simulator Unit).run.run s =
      (.ok (), { s with history := s.history.push
                          ("SWEEP:ENTRY:FREQ:CENT " ++ toString a ++ " Hz, " ++ toString b ++ " Hz"),
                        editing := { s.editing with fcstart := a, fcstop := b } }) := by
  obtain ⟨hne, hdig⟩ := toString_digits a
  have hsep : " Hz, ".toList = " Hz".toList ++ ',' :: [' '] := rfl
  have hlist : ("SWEEP:ENTRY:FREQ:CENT " ++ toString a ++ " Hz, " ++ toString b ++ " Hz").toList =
      "SWEEP:ENTRY:FREQ:CENT".toList ++
        ' ' :: (toString a ++ " Hz, " ++ toString b ++ " Hz").toList := by
    simp
  have hargList : (toString a ++ " Hz, " ++ toString b ++ " Hz").toList =
      ((toString a).toList ++ " Hz".toList) ++ ',' :: ([' '] ++ (toString b).toList ++ " Hz".toList) := by
    simp [hsep]
  have harg : trim (toString a ++ " Hz, " ++ toString b ++ " Hz") =
      toString a ++ " Hz, " ++ toString b ++ " Hz" := by
    apply trim_of_ends (by simp)
    · intro c hc
      rw [hargList, List.append_assoc, List.head?_append_of_ne_nil _ hne] at hc
      exact isBlank_of_isDigit (hdig c (List.mem_of_mem_head? hc))
    · rw [String.toList_append]
      exact isBlank_getLast_hz _
  have htrim : trim ("SWEEP:ENTRY:FREQ:CENT " ++ toString a ++ " Hz, " ++ toString b ++ " Hz") =
      "SWEEP:ENTRY:FREQ:CENT " ++ toString a ++ " Hz, " ++ toString b ++ " Hz" := by
    apply trim_of_ends (by simp)
    · rw [hlist, List.head?_append_of_ne_nil _ (by decide)]
      simp [isBlank]
    · rw [String.toList_append]
      exact isBlank_getLast_hz _
  have hsplit := splitCommand_arg hlist (by decide) harg
  -- the argument holds one comma, between the two frequencies
  have hcomma : (toString a ++ " Hz, " ++ toString b ++ " Hz").splitOn "," =
      [String.ofList ([] ++ (toString a).toList ++ " Hz".toList),
       String.ofList ([' '] ++ (toString b).toList ++ " Hz".toList)] := by
    have hfirst : ',' ∉ (toString a).toList ++ " Hz".toList :=
      List.not_mem_append (not_mem_digits (by decide) a) (by decide)
    have hsecond : ',' ∉ [' '] ++ (toString b).toList ++ " Hz".toList :=
      List.not_mem_append (List.not_mem_append (by decide) (not_mem_digits (by decide) b))
        (by decide)
    rw [show ("," : String) = String.singleton ',' by decide, splitOn_singleton, hargList,
      List.splitOn_append_cons_self_of_not_mem hfirst, List.splitOn_eq_singleton hsecond]
    simp
  show (send ("SWEEP:ENTRY:FREQ:CENT " ++ toString a ++ " Hz, " ++ toString b ++ " Hz") :
    Control Simulator Unit).run.run s = _
  rw [send_run, htrim, Simulator.execute, hsplit]
  simp only [show toUpperFull "SWEEP:ENTRY:FREQ:CENT" = "SWEEP:ENTRY:FREQ:CENT" by decide, hcomma]
  rw [run_bind_ok (parseHz_number (by simp) ha _), run_bind_ok (modify_run _ _),
    show ",".intercalate [String.ofList ([' '] ++ (toString b).toList ++ " Hz".toList)] =
      String.ofList ([' '] ++ (toString b).toList ++ " Hz".toList) from rfl,
    run_bind_ok (parseHz_number (by simp [isBlank]) hb _)]
  rfl

/-! ## Loading a plan -/

/-- The simulator's record of a plan entry. -/
def SimEntry.ofPlan (e : PlanEntry) : SimEntry :=
  ⟨e.fcstart, e.fcstop, e.fstep, e.samplesPerPacket, e.packetsPerBlock⟩

/-- A plan entry whose numbers fit the argument types the instrument reads them into. -/
structure EntryFits (e : PlanEntry) : Prop where
  fcstart : e.fcstart ≤ maxU64
  fcstop : e.fcstop ≤ maxU64
  fstep : e.fstep ≤ maxU64
  samplesPerPacket : e.samplesPerPacket ≤ maxU64
  packetsPerBlock : e.packetsPerBlock ≤ maxUnsigned 32

/-- Writing an entry sets every field of the record being edited, so whatever was edited
before, the saved entry is the plan entry. -/
theorem pushEntry_run {e : PlanEntry} (he : EntryFits e) (s : Simulator) :
    ∃ h, (pushEntry e : Control Simulator Unit).run.run s =
      (.ok (), { s with history := h, editing := SimEntry.ofPlan e,
                        entries := s.entries.push (SimEntry.ofPlan e) }) := by
  -- the history is whatever the five commands leave, read off the run
  refine ⟨?history, ?run⟩
  case run =>
    unfold pushEntry
    rw [run_bind_ok (setCenterRange_run he.fcstart he.fcstop s),
      run_bind_ok (setStep_run he.fstep _),
      run_bind_ok (setSamplesPerPacket_run he.samplesPerPacket _),
      run_bind_ok (setPacketsPerBlock_run he.packetsPerBlock _), saveEntry_run]
    rfl

/-- Writing a list of entries appends them, whatever is being edited; the rest of the state
but the history and the record being edited stays. -/
theorem forM_pushEntry_run {P : Simulator → Prop} :
    ∀ (es : List PlanEntry), (∀ e ∈ es, EntryFits e) → ∀ s : Simulator,
      (∀ h ed xs, xs.toList = s.entries.toList ++ es.map SimEntry.ofPlan →
        P { s with history := h, editing := ed, entries := xs }) →
      ∃ s', (es.forM pushEntry : Control Simulator Unit).run.run s = (.ok (), s') ∧ P s'
  | [], _, s, hP => ⟨s, rfl, hP s.history s.editing s.entries (by simp)⟩
  | e :: es, hes, s, hP => by
    obtain ⟨h₁, hrun₁⟩ := pushEntry_run (hes e List.mem_cons_self) s
    obtain ⟨s', hrun, hs'⟩ := forM_pushEntry_run es
      (fun e' he' => hes e' (List.mem_cons_of_mem e he'))
      { s with history := h₁, editing := SimEntry.ofPlan e,
               entries := s.entries.push (SimEntry.ofPlan e) }
      fun h ed xs hxs => hP h ed xs (by
        rw [hxs, Array.toList_push, List.map_cons, List.append_assoc, List.singleton_append])
    refine ⟨s', ?_, hs'⟩
    show (pushEntry e >>= fun _ => es.forM pushEntry).run.run s = _
    rw [run_bind_ok hrun₁, hrun]

/-- What loading a plan leaves in the simulator, whatever its state before: the plan's entries,
one iteration, the attenuation and the mode, the sweep stopped and the data queue empty, with
the configuration untouched. -/
structure Loaded (p : SweepPlan) (att : ℕ) (s s' : Simulator) : Prop where
  entries : s'.entries.toList = p.entries.map SimEntry.ofPlan
  iterations : s'.iterations = 1
  mode : s'.mode = some p.mode
  attenuation : s'.attenuation = some att
  running : s'.running = false
  queue : s'.queue = #[]
  config : s'.config = s.config

theorem loadPlan_run {p : SweepPlan} (hp : ∀ e ∈ p.entries, EntryFits e) {att : ℕ}
    (hatt : att ≤ maxUnsigned 32) (d : Descriptor) (s : Simulator) :
    ∃ s', (loadPlan p att d : Control Simulator Unit).run.run s = (.ok (), s') ∧
      Loaded p att s s' := by
  unfold loadPlan
  rw [run_bind_ok (reset_run s), run_bind_ok (flush_run _), run_bind_ok (abort_run _),
    run_bind_ok (clearAllEntries_run _), run_bind_ok (newEntry_run _),
    run_bind_ok (setIteration_run (by decide) _), run_bind_ok (setAttenuation_run d hatt _),
    run_bind_ok (setMode_run p.mode _)]
  -- the list was cleared before the entries were written
  apply forM_pushEntry_run p.entries hp
  intro h ed xs hxs
  exact ⟨by simpa using hxs, rfl, rfl, rfl, rfl, rfl, rfl⟩


end SweptSpectrum.Instrument
