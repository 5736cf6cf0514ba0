/-!
The similarity of texts the command is built with: Jaro similarity, the measure behind its "a
similar argument exists" hints.

Two characters match when they are equal and stand no further apart than half the longer
length less one; each character of the second text matches at most once, and a character of
the first takes its first free partner from the left. Of the matched characters, those that
pair up in a different order count half each as transpositions. The similarity is the mean of
three shares: matches in the first text, matches in the second, and matches that are not
transpositions. Two empty texts are alike (1); an empty text and another, or two texts with
no match, are not at all (0).
-/

namespace SweptSpectrum.Backend

/-- The first position in `[lo, hi)` where `b` holds `c` and `taken` is not yet set. -/
def freePartner (b : Array Char) (taken : Array Bool) (c : Char) (lo hi : Nat) : Option Nat :=
  (List.range' lo (hi - lo)).find? fun j => b[j]? == some c && !taken.getD j true

/-- Marks the matched characters of `a` and of `b`, walking `a` from the left. -/
def matchFlags (a b : Array Char) : Array Bool × Array Bool :=
  let window := max a.size b.size / 2 - 1
  a.toList.zipIdx.foldl (fun (fa, fb) (c, i) =>
    match freePartner b fb c (i - window) (min b.size (i + window + 1)) with
    | some j => (fa.setIfInBounds i true, fb.setIfInBounds j true)
    | none => (fa, fb)) (Array.replicate a.size false, Array.replicate b.size false)

/-- The characters of `s` whose flag is set, in order. -/
def flagged (s : Array Char) (flags : Array Bool) : List Char :=
  (s.toList.zip flags.toList).filterMap fun (c, f) => if f then some c else none

/-- The Jaro similarity of `a` and `b`, between 0 and 1. -/
def jaro (a b : String) : Float :=
  let a := a.toList.toArray
  let b := b.toList.toArray
  if a.size = 0 ∧ b.size = 0 then 1.0
  else if a.size = 0 ∨ b.size = 0 then 0.0
  else
    let (fa, fb) := matchFlags a b
    let ma := flagged a fa
    let mb := flagged b fb
    let m := ma.length
    let t := ((ma.zip mb).filter fun (x, y) => x != y).length / 2
    if m = 0 then 0.0
    else (m.toFloat / a.size.toFloat + m.toFloat / b.size.toFloat +
      (m - t).toFloat / m.toFloat) / 3.0

end SweptSpectrum.Backend
