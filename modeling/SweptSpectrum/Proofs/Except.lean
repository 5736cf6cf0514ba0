import SweptSpectrum.Sweep.Error

/-!
# Reading back a successful result

The steps of the library return `Except`; a step that succeeded ran each of its parts to
success. These lemmas take a `do` block that returned `.ok` apart, one bind at a time.
-/

namespace SweptSpectrum

theorem Except.bind_eq_ok {ε α β : Type} {x : Except ε α} {f : α → Except ε β} {b : β} :
    x >>= f = .ok b ↔ ∃ a, x = .ok a ∧ f a = .ok b := by
  cases x <;> simp [bind, Except.bind]

@[simp] theorem Except.pure_eq_ok {ε α : Type} {a b : α} : (pure a : Except ε α) = .ok b ↔ a = b := by
  simp [pure, Except.pure]

@[simp] theorem Except.throw_ne_ok {ε α : Type} {e : ε} {b : α} : (throw e : Except ε α) ≠ .ok b := by
  simp [throw, throwThe, MonadExceptOf.throw]

theorem Sweep.liftLink_eq_ok {α : Type} {x : Except Vrt.LinkError α} {a : α} :
    Sweep.liftLink x = .ok a ↔ x = .ok a := by
  cases x <;> simp [Sweep.liftLink]

end SweptSpectrum
