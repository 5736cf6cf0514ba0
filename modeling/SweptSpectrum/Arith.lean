/-!
The instances the library's arithmetic is written with.

A power of a natural number or an integer is core's `Nat.pow` or `Int.pow`, and the zero of a
sum of natural numbers is the literal `0`, whatever else is imported: each definition then
stands for one term, with or without an algebraic library in scope.
-/

namespace SweptSpectrum

/-- Powers of natural numbers by core's `Nat.pow`, ahead of a monoid's power; also the power
that a literal raised to a literal means. -/
@[default_instance 20000]
instance (priority := 1100) natPow : Pow Nat Nat := instPowNat

/-- Powers of integers by core's `Int.pow`, ahead of a monoid's power. -/
@[default_instance 19000]
instance (priority := 1100) intPow : Pow Int Nat := instPowNat

/-- The zero of the natural numbers, ahead of one derived from an algebraic structure. -/
instance (priority := 1100) natZero : Zero Nat := ⟨0⟩

end SweptSpectrum
