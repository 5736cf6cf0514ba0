import Mathlib.Data.List.Induction
import SweptSpectrum.Proofs.Instrument.Commands

/-!
# What a simulator command leaves behind

The simulator reads a command as a word, up to the first space and uppercased, and an argument.
Most commands read their argument first and change the state only once it has been read, so a
command the simulator rejects leaves everything as it was but the history, which records every
command. Two do not. A center-range command stores the start frequency of the entry being
edited before it reads the stop frequency. A start marks the sweep running, numbers it and
sends packets before an entry can make the encoder fail, and what it sent stays sent. Even
these keep the sweep list, the iteration count, the mode and the attenuation
(`send_rejected`).

The sweep list changes only by three commands: a save appends the entry being edited, a reset or
a deletion of all entries empties it (`entries_send`). Over a script the simulator accepts, the
entry count it reports is therefore the number of saves since the last clearing command
(`entries_script`). Both facts are put together in `rejected_commands_and_entry_count`.

Whether a computation keeps some view of the state is one predicate, `Keeps`, closed under
binds and loops; every frame fact here is an instance of it.
-/

namespace SweptSpectrum.Instrument

open Vrt Sweep

/-! ## Taking a run apart -/

section Runs

variable {σ α β : Type} {x : Control σ α} {f : α → Control σ β} {s s' : σ}

/-- A bind that failed: its first step failed, or that succeeded and the rest failed. -/
theorem run_bind_eq_error {e : LinkError} (h : (x >>= f).run.run s = (.error e, s')) :
    x.run.run s = (.error e, s') ∨
      ∃ a s₁, x.run.run s = (.ok a, s₁) ∧ (f a).run.run s₁ = (.error e, s') := by
  simp only [ExceptT.run_bind, StateT.run_bind] at h
  generalize x.run.run s = r at h ⊢
  obtain ⟨res, s₁⟩ := r
  cases res with
  | ok a => exact .inr ⟨a, s₁, rfl, h⟩
  | error e' =>
    change (Except.error e', s₁) = _ at h
    cases h
    exact .inl rfl

/-- A bind that succeeded: both its steps succeeded. -/
theorem run_bind_eq_ok {b : β} (h : (x >>= f).run.run s = (.ok b, s')) :
    ∃ a s₁, x.run.run s = (.ok a, s₁) ∧ (f a).run.run s₁ = (.ok b, s') := by
  simp only [ExceptT.run_bind, StateT.run_bind] at h
  generalize x.run.run s = r at h ⊢
  obtain ⟨res, s₁⟩ := r
  cases res with
  | ok a => exact ⟨a, s₁, rfl, h⟩
  | error e =>
    change (Except.error e, s₁) = _ at h
    cases h

end Runs

/-! ## Views of the state a computation keeps -/

/-- Running `m`, whatever its outcome, leaves the view `v` of the state as it was. -/
def Keeps {γ α : Type} (v : Simulator → γ) (m : SimM α) : Prop := ∀ s, v (m.run.run s).2 = v s

namespace Keeps

variable {α β γ δ : Type} {v : Simulator → γ}

theorem bind {m : SimM α} {f : α → SimM β} (hm : Keeps v m) (hf : ∀ a, Keeps v (f a)) :
    Keeps v (m >>= f) := by
  intro s
  have h := hm s
  simp only [ExceptT.run_bind, StateT.run_bind]
  generalize m.run.run s = r at h ⊢
  obtain ⟨res, s₁⟩ := r
  cases res with
  | ok a => exact (hf a s₁).trans h
  | error e => exact h

theorem pure (a : α) : Keeps v (Pure.pure a : SimM α) := fun _ => rfl

theorem get : Keeps v (MonadState.get : SimM Simulator) := fun _ => rfl

theorem throw (e : LinkError) : Keeps v (MonadExcept.throw e : SimM α) := fun _ => rfl

theorem modifyGet {f : Simulator → α × Simulator} (hf : ∀ s, v (f s).2 = v s) :
    Keeps v (MonadStateOf.modifyGet f : SimM α) := hf

theorem modify {f : Simulator → Simulator} (hf : ∀ s, v (f s) = v s) :
    Keeps v (modify f : SimM PUnit) := hf

/-- What follows reading the state need only keep the view of the state it read. -/
theorem get_bind {f : Simulator → SimM β} (hf : ∀ s, v ((f s).run.run s).2 = v s) :
    Keeps v (MonadState.get >>= f) := hf

/-- Replacing the state by one with the same view, then going on. -/
theorem set_bind {s s' : Simulator} {f : PUnit → SimM β} (hs : v s' = v s) (hf : Keeps v (f ⟨⟩)) :
    v ((MonadStateOf.set s' >>= f).run.run s).2 = v s :=
  (hf s').trans hs

theorem forIn {f : β → δ → SimM (ForInStep δ)} (hf : ∀ x y, Keeps v (f x y)) :
    ∀ (xs : List β) (y : δ), Keeps v (forIn xs y f)
  | [], y => by
    rw [List.forIn_nil]
    exact pure y
  | x :: xs, y => by
    rw [List.forIn_cons]
    refine (hf x y).bind fun r => ?_
    cases r with
    | done y => exact pure y
    | yield y => exact forIn hf xs y

/-- A computation that keeps a view keeps everything computed from it. -/
theorem comp {m : SimM α} (hm : Keeps v m) (g : γ → δ) : Keeps (g ∘ v) m :=
  fun s => congrArg g (hm s)

theorem of_id {m : SimM α} (hm : Keeps id m) : Keeps v m :=
  fun s => congrArg v (hm s)

theorem run_eq {m : SimM α} {s s' : Simulator} {r : Except LinkError α}
    (h : m.run.run s = (r, s')) (hm : Keeps v m) : v s' = v s := by
  have := hm s
  rwa [h] at this

/-- A computation that keeps the whole state. -/
theorem state_eq {m : SimM α} (hm : Keeps id m) {s s' : Simulator} {r : Except LinkError α}
    (h : m.run.run s = (r, s')) : s' = s :=
  run_eq h hm

end Keeps

/-! ## A sweep keeps the settings -/

/-- The sweep list and the settings of a simulator, with its history: all but what a sweep
changes, its flag and number, the clock, the random draws and the data channel. -/
structure Settings where
  config : SimConfig
  entries : Array SimEntry
  editing : SimEntry
  iterations : Nat
  mode : Option RfeMode
  attenuation : Option Nat
  history : Array String

namespace Simulator

/-- The settings of a simulator. -/
def settings (s : Simulator) : Settings :=
  ⟨s.config, s.entries, s.editing, s.iterations, s.mode, s.attenuation, s.history⟩

theorem emit_keeps (id : StreamId) (ts : Timestamp) (body : Body) :
    Keeps settings (emit id ts body) := by
  unfold emit
  refine Keeps.get.bind fun s₀ => ?_
  split
  · exact Keeps.modify fun _ => rfl
  · exact Keeps.throw _

theorem samples_keeps (p : Profile) (fc n : ℕ) : Keeps settings (samples p fc n) := by
  unfold samples
  refine Keeps.get.bind fun s₀ => ?_
  dsimp only
  split
  · exact (Keeps.modifyGet fun _ => rfl).bind fun _ => Keeps.pure _
  · exact (Keeps.pure _).bind fun _ => Keeps.pure _

theorem emitTunings_keeps (p : Profile) (e : SimEntry) :
    ∀ count step, Keeps settings (emitTunings p e count step)
  | 0, _ => Keeps.pure ()
  | count + 1, step => by
    rw [emitTunings]
    refine Keeps.get.bind fun _ => (emit_keeps _ _ _).bind fun _ => ?_
    refine Keeps.get.bind fun _ => (emit_keeps _ _ _).bind fun _ => ?_
    refine (Keeps.forIn (fun _ _ => ?_) _ _).bind fun _ => emitTunings_keeps p e count _
    refine (samples_keeps _ _ _).bind fun _ => Keeps.get.bind fun _ => ?_
    refine (emit_keeps _ _ _).bind fun _ => (Keeps.modify ?_).bind fun _ => Keeps.pure _
    exact fun _ => rfl

/-- A start, whether it fails or not, changes only what a sweep changes. -/
theorem startSweep_keeps : Keeps settings startSweep := by
  unfold startSweep
  refine Keeps.get_bind fun s => ?_
  dsimp only
  split
  · split
    · rw [pure_bind]
      refine Keeps.set_bind rfl ?_
      refine Keeps.get.bind fun _ => (emit_keeps _ _ _).bind fun _ => ?_
      refine Keeps.get.bind fun _ => Keeps.get.bind fun _ => ?_
      refine (Keeps.forIn (fun _ _ => ?_) _ _).bind fun _ => Keeps.pure _
      rw [← Array.forIn_toList]
      refine (Keeps.forIn (fun _ _ => ?_) _ _).bind fun _ => Keeps.pure _
      exact (emitTunings_keeps _ _ _ _).bind fun _ => Keeps.pure _
    · rfl
  · rfl

/-! ## Rejected commands -/

theorem parseArg_keeps (cmd arg : String) (bound : ℕ) : Keeps id (parseArg cmd arg bound) := by
  unfold parseArg
  split
  · exact Keeps.pure _
  · exact Keeps.throw _

theorem parseHz_keeps (cmd arg : String) : Keeps id (parseHz cmd arg) := by
  unfold parseHz
  exact parseArg_keeps _ _ _

/-- A step that reads an argument and then changes the state fails only in the reading, and so
leaves the state as it was. -/
theorem error_read_modify {α : Type} {m : SimM α} (hm : Keeps id m) {f : α → Simulator → Simulator}
    {s s' : Simulator} {e : LinkError}
    (h : (m >>= fun a => modify (f a)).run.run s = (.error e, s')) : s' = s := by
  rcases run_bind_eq_error h with h | ⟨a, s₁, -, h⟩
  · exact hm.state_eq h
  · rw [modify_run] at h
    cases h

/-- The word of a command as the simulator matches it: up to the first space, uppercased. -/
def commandWord (cmd : String) : String := Text.toUpperFull (splitCommand cmd).1

/-- What a command with this word leaves of the state when the simulator rejects it: the state
itself, but for a center range, which may have stored its start frequency, and a start, which
may have begun the sweep. -/
def RejectLeaves (word : String) (s s' : Simulator) : Prop :=
  if word = "SWEEP:ENTRY:FREQ:CENT" then
    ∃ f, s' = { s with editing := { s.editing with fcstart := f } }
  else if word = "SWEEP:LIST:START" then s'.settings = s.settings
  else s' = s

theorem rejectLeaves_self (word : String) (s : Simulator) : RejectLeaves word s s := by
  unfold RejectLeaves
  split_ifs
  · exact ⟨s.editing.fcstart, rfl⟩
  · rfl
  · rfl

theorem rejectLeaves_center {s s' : Simulator} :
    RejectLeaves "SWEEP:ENTRY:FREQ:CENT" s s' ↔
      ∃ f, s' = { s with editing := { s.editing with fcstart := f } } := by
  rw [RejectLeaves, if_pos rfl]

theorem rejectLeaves_start {s s' : Simulator} :
    RejectLeaves "SWEEP:LIST:START" s s' ↔ s'.settings = s.settings := by
  rw [RejectLeaves, if_neg (by decide), if_pos rfl]

theorem execute_rejected {cmd : String} {s s' : Simulator} {e : LinkError}
    (h : (execute cmd).run.run s = (.error e, s')) : RejectLeaves (commandWord cmd) s s' := by
  unfold commandWord
  unfold execute at h
  generalize splitCommand cmd = p at h ⊢
  obtain ⟨head, arg⟩ := p
  dsimp only at h ⊢
  split at h
  -- the commands that only change the state cannot fail
  case h_1 | h_2 | h_3 | h_4 | h_6 | h_7 =>
    rw [modify_run] at h
    cases h
  -- those that read an argument fail before they change anything
  case h_8 | h_9 | h_10 | h_14 | h_15 =>
    obtain rfl := error_read_modify (parseArg_keeps _ _ _) h
    exact rejectLeaves_self _ _
  case h_13 =>
    obtain rfl := error_read_modify (parseHz_keeps _ _) h
    exact rejectLeaves_self _ _
  case h_5 | h_11 =>
    split at h
    · rw [modify_run] at h
      cases h
    · cases h
      exact rejectLeaves_self _ _
  case h_12 heq =>
    rw [heq, rejectLeaves_center]
    split at h
    · -- the start frequency is stored before the stop frequency is read
      rcases run_bind_eq_error h with hstart | ⟨a, s₁, hstart, hrest⟩
      · exact ⟨s.editing.fcstart, (parseHz_keeps _ _).state_eq hstart⟩
      obtain rfl := (parseHz_keeps _ _).state_eq hstart
      rcases run_bind_eq_error hrest with hset | ⟨_, s₂, hset, hstop⟩
      · rw [modify_run] at hset
        cases hset
      rw [modify_run] at hset
      cases hset
      exact ⟨a, error_read_modify (parseHz_keeps _ _) hstop⟩
    · cases h
      exact ⟨s.editing.fcstart, rfl⟩
  case h_16 heq =>
    rw [heq, rejectLeaves_start]
    exact startSweep_keeps.run_eq h
  case h_17 =>
    cases h
    exact rejectLeaves_self _ _

/-- A command the simulator rejects leaves the state as it was but for its record in the
history, except that a center range may have stored its start frequency and a start may have
begun the sweep; even these keep the sweep list and the settings. -/
theorem send_rejected {cmd : String} {s s' : Simulator} {e : LinkError}
    (h : (send cmd : Control Simulator Unit).run.run s = (.error e, s')) :
    RejectLeaves (commandWord (Text.trim cmd))
      { s with history := s.history.push (Text.trim cmd) } s' := by
  rw [send_run] at h
  exact execute_rejected h

/-! ## The sweep list -/

/-- Whether a command empties the sweep list: a reset, or a deletion of all entries. -/
def clearsEntries (cmd : String) : Bool :=
  commandWord cmd == "*RST" ||
    (commandWord cmd == "SWEEP:ENTRY:DELETE" && Text.eqIgnoreAsciiCase (splitCommand cmd).2 "ALL")

/-- Whether a command saves the entry being edited. -/
def savesEntry (cmd : String) : Bool := commandWord cmd == "SWEEP:ENTRY:SAVE"

/-- The sweep list after a command the simulator accepts. -/
def entriesAfter (cmd : String) (s : Simulator) : Array SimEntry :=
  if clearsEntries cmd then #[] else if savesEntry cmd then s.entries.push s.editing else s.entries

theorem execute_entries {cmd : String} {s s' : Simulator} {u : Unit}
    (h : (execute cmd).run.run s = (.ok u, s')) : s'.entries = entriesAfter cmd s := by
  unfold entriesAfter clearsEntries savesEntry commandWord
  unfold execute at h
  generalize splitCommand cmd = p at h ⊢
  obtain ⟨head, arg⟩ := p
  dsimp only at h ⊢
  split at h
  -- a reset, a deletion of all entries and a save change the list
  case h_1 heq | h_7 heq =>
    rw [modify_run] at h
    cases h
    simp [heq]
  case h_5 heq =>
    split at h
    next hall =>
      rw [modify_run] at h
      cases h
      simp [heq, hall]
    next => cases h
  case h_17 => cases h
  -- every other command keeps it, whatever else it does
  case h_2 heq | h_3 heq | h_4 heq | h_6 heq =>
    rw [Keeps.run_eq (v := entries) h (Keeps.modify fun _ => rfl)]
    simp [heq]
  case h_8 heq | h_9 heq | h_10 heq | h_14 heq | h_15 heq =>
    rw [Keeps.run_eq (v := entries) h
      ((parseArg_keeps _ _ _).of_id.bind fun _ => Keeps.modify fun _ => rfl)]
    simp [heq]
  case h_13 heq =>
    rw [Keeps.run_eq (v := entries) h
      ((parseHz_keeps _ _).of_id.bind fun _ => Keeps.modify fun _ => rfl)]
    simp [heq]
  case h_11 heq =>
    split at h
    · rw [Keeps.run_eq (v := entries) h (Keeps.modify fun _ => rfl)]
      simp [heq]
    · cases h
  case h_12 heq =>
    split at h
    · rw [Keeps.run_eq (v := entries) h ?keeps]
      · simp [heq]
      refine (parseHz_keeps _ _).of_id.bind fun _ => (Keeps.modify ?_).bind fun _ => ?_
      · exact fun _ => rfl
      refine (parseHz_keeps _ _).of_id.bind fun _ => Keeps.modify ?_
      exact fun _ => rfl
    · cases h
  case h_16 heq =>
    rw [Keeps.run_eq (v := entries) h (startSweep_keeps.comp Settings.entries)]
    simp [heq]

end Simulator

open Simulator

/-- The sweep list after a command the simulator accepts: emptied by a reset or a deletion of
all entries, the entry being edited appended by a save, else as it was. -/
theorem entries_send {cmd : String} {s s' : Simulator} {u : Unit}
    (h : (send cmd : Control Simulator Unit).run.run s = (.ok u, s')) :
    s'.entries = entriesAfter (Text.trim cmd) s := by
  rw [send_run] at h
  rw [execute_entries h]
  rfl

/-- The number of saves since the last command that emptied the list, as the simulator reads
the commands of a script. -/
def savesSinceClear (script : List String) : ℕ :=
  ((script.reverse.takeWhile fun c => !clearsEntries (Text.trim c)).filter
    fun c => savesEntry (Text.trim c)).length

theorem savesSinceClear_concat (script : List String) (c : String) :
    savesSinceClear (script ++ [c]) =
      if clearsEntries (Text.trim c) then 0
      else savesSinceClear script + if savesEntry (Text.trim c) then 1 else 0 := by
  unfold savesSinceClear
  rw [List.reverse_append, List.reverse_singleton, List.singleton_append, List.takeWhile_cons]
  by_cases hc : clearsEntries (Text.trim c)
  · simp [hc]
  · by_cases hs : savesEntry (Text.trim c) <;> simp [hc, hs]

/-- Over a script the simulator accepts, the list holds the saves since the last command that
emptied it, after what it held before if no command did. -/
theorem entries_script (s : Simulator) :
    ∀ (script : List String) (s' : Simulator),
      (script.forM send : Control Simulator Unit).run.run s = (.ok (), s') →
      s'.entries.size = savesSinceClear script +
        if script.any fun c => clearsEntries (Text.trim c) then 0 else s.entries.size := by
  intro script
  induction script using List.reverseRecOn with
  | nil =>
    rintro s' ⟨⟩
    simp [savesSinceClear]
  | append_singleton script c ih =>
    intro s' h
    rw [List.forM_eq_forM, List.forM_append] at h
    obtain ⟨_, s₁, hrun, hc⟩ := run_bind_eq_ok h
    rw [List.forM_cons, List.forM_nil, bind_pure_unit] at hc
    have hsize := ih s₁ hrun
    rw [entries_send hc, entriesAfter, savesSinceClear_concat, List.any_append]
    by_cases hclear : clearsEntries (Text.trim c)
    · simp [hclear]
    · by_cases hsave : savesEntry (Text.trim c) <;> simp [hclear, hsave, hsize]
      omega

theorem query_entryCount_run (s : Simulator) :
    (query "SWEEP:ENTRY:COUNT?" : Control Simulator String).run.run s =
      (.ok (toString s.entries.size),
        { s with history := s.history.push "SWEEP:ENTRY:COUNT?" }) := by
  show (answer (Text.trim "SWEEP:ENTRY:COUNT?")).run.run
    { s with history := s.history.push (Text.trim "SWEEP:ENTRY:COUNT?") } = _
  rw [show Text.trim "SWEEP:ENTRY:COUNT?" = "SWEEP:ENTRY:COUNT?" by decide, answer]
  simp only [show Text.toUpperFull "SWEEP:ENTRY:COUNT?" = "SWEEP:ENTRY:COUNT?" by decide]
  rfl

/-- What the simulator's commands leave: a command it rejects leaves the state as it was but for
its record in the history, a center range's start frequency and what a start has begun; over a
script it accepts, the entry count it reports is the number of saves since the last reset or
deletion of all entries, after the entries it held if there was none. -/
theorem rejected_commands_and_entry_count (cmd : String) (script : List String)
    (s s' : Simulator) :
    (∀ e : LinkError, (send cmd : Control Simulator Unit).run.run s = (.error e, s') →
      RejectLeaves (commandWord (Text.trim cmd))
        { s with history := s.history.push (Text.trim cmd) } s') ∧
    ((script.forM send : Control Simulator Unit).run.run s = (.ok (), s') →
      ((query "SWEEP:ENTRY:COUNT?" : Control Simulator String).run.run s').1 =
        .ok (toString (savesSinceClear script +
          if script.any fun c => clearsEntries (Text.trim c) then 0 else s.entries.size))) := by
  refine ⟨fun _ h => send_rejected h, fun h => ?_⟩
  rw [query_entryCount_run, entries_script s script s' h]

end SweptSpectrum.Instrument
