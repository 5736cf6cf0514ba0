import Mathlib
import SweptSpectrum.Dsp.Measure

/-!
# The peak of a spectrum is its first greatest bin

The peak search folds over the bins in order and takes a bin only when it is strictly above the
best so far, starting from bin zero. Over a spectrum without NaN values the IEEE order of single
floats is a total preorder (the two zeros compare equal), so the fold stops on the first bin that
no other bin exceeds: ties go to the lowest frequency.

The order of non-NaN floats is read off the IEEE comparison once, as a lexicographic rank
(`orderRank`): negative infinity, the negative numbers by descending exponent and mantissa, the
zeros, the positive numbers by exponent and mantissa, positive infinity. Every order fact the
search needs then comes from the linear order of the ranks.

The main statement is `peakFind_first_greatest`.
-/

namespace SweptSpectrum.Dsp

open Float.Model

/-! ## The IEEE order of single floats -/

/-- Where a number stands in the IEEE order: its class, and within a finite sign its exponent and
mantissa, negated for negative numbers. A NaN compares with nothing and is given the rank of
zero. -/
def orderRank : UnpackedFloat → ℤ ×ₗ ℤ ×ₗ ℤ
  | .infinity .negative => toLex (0, toLex (0, 0))
  | .finite .negative m e _ => toLex (1, toLex (-e, -(m : ℤ)))
  | .zero _ => toLex (2, toLex (0, 0))
  | .notANumber => toLex (2, toLex (0, 0))
  | .finite .positive m e _ => toLex (3, toLex (e, m))
  | .infinity .positive => toLex (4, toLex (0, 0))

section Rank

variable {a b : UnpackedFloat}

-- The comparison is a table over the classes of both operands and, for two finite numbers of
-- one sign, a lexicographic comparison of exponent and mantissa.
theorem lt_iff_orderRank (ha : a.isNaN = false) (hb : b.isNaN = false) :
    a.lt b = true ↔ orderRank a < orderRank b := by
  rcases a with ⟨⟨⟩⟩ | _ | ⟨⟨⟩⟩ | ⟨⟨⟩, m, e, hm⟩ <;>
  rcases b with ⟨⟨⟩⟩ | _ | ⟨⟨⟩⟩ | ⟨⟨⟩, m', e', hm'⟩ <;>
  simp_all +decide [UnpackedFloat.lt, UnpackedFloat.compare, orderRank, Prod.Lex.toLex_lt_toLex,
    Ordering.then_eq_lt, Ordering.then_eq_gt, Ordering.swap_eq_lt, Int.compare_eq_lt,
    Int.compare_eq_gt, Nat.compare_eq_lt, Nat.compare_eq_gt]

theorem le_iff_orderRank (ha : a.isNaN = false) (hb : b.isNaN = false) :
    a.le b = true ↔ orderRank a ≤ orderRank b := by
  rcases a with ⟨⟨⟩⟩ | _ | ⟨⟨⟩⟩ | ⟨⟨⟩, m, e, hm⟩ <;>
  rcases b with ⟨⟨⟩⟩ | _ | ⟨⟨⟩⟩ | ⟨⟨⟩, m', e', hm'⟩ <;>
  simp_all +decide [UnpackedFloat.le, UnpackedFloat.compare, orderRank, Prod.Lex.toLex_le_toLex,
    Ordering.isLE_iff_ne_gt, Ordering.isGE_iff_ne_lt, Ordering.then_eq_gt, Ordering.then_eq_lt,
    Int.compare_eq_lt, Int.compare_eq_gt, Nat.compare_eq_gt, Nat.compare_eq_lt] <;> omega

end Rank

/-- The rank of a single float in the IEEE order. -/
def rank32 (x : Float32) : ℤ ×ₗ ℤ ×ₗ ℤ := orderRank x.toModel.unpack

section Single

variable {a b : Float32}

theorem lt_iff_rank32 (ha : a.isNaN = false) (hb : b.isNaN = false) :
    a < b ↔ rank32 a < rank32 b := by
  have h := lt_iff_orderRank ha hb
  simp only [rank32, ← h]
  exact decide_eq_true_iff

theorem le_iff_rank32 (ha : a.isNaN = false) (hb : b.isNaN = false) :
    a ≤ b ↔ rank32 a ≤ rank32 b := by
  have h := le_iff_orderRank ha hb
  simp only [rank32, ← h]
  exact decide_eq_true_iff

end Single

/-! ## Searching for the first maximum -/

section FirstMax

variable {α β : Type} [LinearOrder β] (key : α → β)

/-- `i` is the first place of a greatest element of `xs` by `key`: no element is above element
`i`, and every element before it is strictly below it. -/
def IsFirstMax (xs : List α) (i : ℕ) : Prop :=
  ∃ hi : i < xs.length, (∀ j (hj : j < xs.length), key xs[j] ≤ key xs[i]) ∧
    ∀ j (hj : j < i), key xs[j] < key xs[i]

/-- `best` is the place and value of the first greatest element of `xs`. -/
def IsFirstMaxOf (xs : List α) (best : ℕ × α) : Prop :=
  ∃ h : best.1 < xs.length, best.2 = xs[best.1] ∧ IsFirstMax key xs best.1

variable {key}

/-- The first greatest place is the least place of a greatest element. -/
theorem IsFirstMax.le_of_greatest {xs : List α} {i k : ℕ} (h : IsFirstMax key xs i)
    (hk : k < xs.length) (hgreatest : ∀ j (hj : j < xs.length), key xs[j] ≤ key xs[k]) :
    i ≤ k := by
  obtain ⟨hi, -, hbefore⟩ := h
  by_contra hlt
  have hbelow := hbefore k (by omega)
  have habove := hgreatest i hi
  exact absurd hbelow (not_lt.mpr habove)

/-- One step of the search: the current element, with its place, replaces the best so far only
when it is strictly above it. -/
def takeAbove [LT α] [DecidableLT α] (best : ℕ × α) (cur : α × ℕ) : ℕ × α :=
  if cur.1 > best.2 then (cur.2, cur.1) else best

/-- One step of the search keeps the first greatest element of the places seen: an element
strictly above the best is the first greatest of the longer list, and one that is not leaves
the best in place. -/
theorem IsFirstMaxOf.takeAbove [LT α] [DecidableLT α] {ys : List α} {best : ℕ × α} {x : α}
    (h : IsFirstMaxOf key ys best)
    (hlt : ∀ a ∈ ys ++ [x], ∀ b ∈ ys ++ [x], a < b ↔ key a < key b) :
    IsFirstMaxOf key (ys ++ [x]) (takeAbove best (x, ys.length)) := by
  obtain ⟨i, v⟩ := best
  obtain ⟨hi, hval, _, hle, hbefore⟩ := h
  simp only at hi hval hle hbefore ⊢
  subst hval
  have hmem : ys[i] ∈ ys ++ [x] := List.mem_append_left _ (List.getElem_mem hi)
  by_cases habove : x > ys[i]
  · -- the new element is strictly above every earlier one
    have hkey : key ys[i] < key x := (hlt _ hmem x (by simp)).mp habove
    simp only [SweptSpectrum.Dsp.takeAbove, if_pos habove]
    refine ⟨by simp, by simp, ⟨by simp, fun j hj => ?_, fun j hj => ?_⟩⟩
    · rcases Nat.lt_succ_iff_lt_or_eq.mp (by simpa using hj) with hj' | rfl
      · rw [List.getElem_append_left hj', List.getElem_append_right (le_refl _)]
        simpa using (hle j hj').trans hkey.le
      · simp
    · rw [List.getElem_append_left hj, List.getElem_append_right (le_refl _)]
      simpa using lt_of_le_of_lt (hle j hj) hkey
  · -- the best so far stays, and the new element is not above it
    have hkey : key x ≤ key ys[i] := not_lt.mp fun h => habove ((hlt _ hmem x (by simp)).mpr h)
    simp only [SweptSpectrum.Dsp.takeAbove, if_neg habove]
    have hi' : i < (ys ++ [x]).length := by simp; omega
    refine ⟨hi', (List.getElem_append_left hi).symm, ⟨hi', fun j hj => ?_, fun j hj => ?_⟩⟩
    · rw [List.getElem_append_left hi]
      rcases Nat.lt_succ_iff_lt_or_eq.mp (by simpa using hj) with hj' | rfl
      · rw [List.getElem_append_left hj']
        exact hle j hj'
      · rw [List.getElem_append_right (le_refl _)]
        simpa using hkey
    · rw [List.getElem_append_left (hj.trans hi), List.getElem_append_left hi]
      exact hbefore j hj

/-- A search over the places of `xs` from place zero ends on the first greatest element, provided
`<` on the elements is the order of their keys; by induction on `xs` from its end, one step per
element. -/
theorem foldl_takeAbove [LT α] [DecidableLT α] (xs : List α) (hxs : 0 < xs.length)
    (hlt : ∀ a ∈ xs, ∀ b ∈ xs, a < b ↔ key a < key b) :
    IsFirstMaxOf key xs (xs.zipIdx.foldl takeAbove (0, xs[0])) := by
  induction xs using List.reverseRecOn with
  | nil => simp at hxs
  | append_singleton ys x ih =>
    by_cases hys : ys = []
    · -- a single element is its own first greatest: it is not above itself
      subst hys
      have hself : ¬ x > x := fun h => lt_irrefl _ ((hlt x (by simp) x (by simp)).mp h)
      have hbest : ([] ++ [x]).zipIdx.foldl takeAbove (0, ([] ++ [x])[0]) = (0, x) := by
        simp [SweptSpectrum.Dsp.takeAbove, hself]
      rw [hbest]
      refine ⟨by simp, by simp, ⟨by simp, fun j hj => ?_, fun j hj => by simp at hj⟩⟩
      simp at hj
      simp [hj]
    · have hys0 : 0 < ys.length := List.length_pos_iff.mpr hys
      have hprev := ih hys0 fun a ha b hb =>
        hlt a (List.mem_append_left _ ha) b (List.mem_append_left _ hb)
      have hfirst : (ys ++ [x])[0] = ys[0] := List.getElem_append_left hys0
      rw [hfirst, List.zipIdx_append, List.foldl_append]
      simpa using hprev.takeAbove hlt

end FirstMax

/-! ## The peak search -/

/-- A spectrum with bins is searched from its first bin, one `takeAbove` step per bin. -/
theorem peakFind_eq {spectrum : Array Float32} (hne : 0 < spectrum.toList.length)
    (fstart fstop : Float) :
    peakFind spectrum fstart fstop =
      .ok (fstart + Sweep.asFloat (spectrum.toList.zipIdx.foldl takeAbove
          (0, spectrum.toList[0])).1 * ((fstop - fstart) / Sweep.asFloat spectrum.size),
        (spectrum.toList.zipIdx.foldl takeAbove (0, spectrum.toList[0])).2) := by
  unfold peakFind
  split
  · rename_i hnil
    simp [hnil] at hne
  · rename_i first rest hcons
    simp only [hcons, List.getElem_cons_zero]
    rfl

/-- The peak of a spectrum without NaN values is its first greatest bin: no bin is above it, and
every bin that no bin is above lies at or after it. Its frequency is that of the bin's left edge,
the span divided evenly among the bins. -/
theorem peakFind_first_greatest (spectrum : Array Float32) (fstart fstop : Float)
    (hne : 0 < spectrum.size) (hnan : ∀ x ∈ spectrum, x.isNaN = false) :
    ∃ i, ∃ hi : i < spectrum.size,
      peakFind spectrum fstart fstop =
        .ok (fstart + Sweep.asFloat i * ((fstop - fstart) / Sweep.asFloat spectrum.size),
          spectrum[i]) ∧
      (∀ j (hj : j < spectrum.size), spectrum[j] ≤ spectrum[i]) ∧
      ∀ k (hk : k < spectrum.size),
        (∀ j (hj : j < spectrum.size), spectrum[j] ≤ spectrum[k]) → i ≤ k := by
  have hle : ∀ j k (hj : j < spectrum.size) (hk : k < spectrum.size),
      spectrum[j] ≤ spectrum[k] ↔ rank32 spectrum[j] ≤ rank32 spectrum[k] := fun j k hj hk =>
    le_iff_rank32 (hnan _ (Array.getElem_mem hj)) (hnan _ (Array.getElem_mem hk))
  have hlen : 0 < spectrum.toList.length := by simpa
  obtain ⟨hi, hval, hmax⟩ := foldl_takeAbove spectrum.toList hlen
    fun a ha b hb => lt_iff_rank32 (hnan a (by simpa using ha)) (hnan b (by simpa using hb))
  have hi' : (spectrum.toList.zipIdx.foldl takeAbove (0, spectrum.toList[0])).1 <
      spectrum.size := by simpa using hi
  refine ⟨_, hi', ?_, fun j hj => ?_, fun k hk hgreatest => ?_⟩
  · rw [peakFind_eq hlen, hval]
    simp only [Array.getElem_toList]
  · rw [hle j _ hj hi', ← Array.getElem_toList, ← Array.getElem_toList]
    exact hmax.2.1 j (by simpa using hj)
  · refine hmax.le_of_greatest (by simpa using hk) fun j hj => ?_
    rw [Array.getElem_toList, Array.getElem_toList, ← hle j k (by simpa using hj) hk]
    exact hgreatest j (by simpa using hj)

/-- Of two equal greatest bins the search reports the lower: over bins `1, 3, 3, 2` from 10 Hz to
20 Hz the peak is bin 1, at 12.5 Hz. -/
theorem peakFind_tie_lowest_bin :
    (0 < #[(1.0 : Float32), 3.0, 3.0, 2.0].size ∧
      ∀ x ∈ #[(1.0 : Float32), 3.0, 3.0, 2.0], x.isNaN = false) ∧
    peakFind #[1.0, 3.0, 3.0, 2.0] 10.0 20.0 =
      .ok (10.0 + Sweep.asFloat 1 * ((20.0 - 10.0) / Sweep.asFloat 4), 3.0) := by
  have hne : 0 < #[(1.0 : Float32), 3.0, 3.0, 2.0].size := by decide
  have hnan : ∀ x ∈ #[(1.0 : Float32), 3.0, 3.0, 2.0], x.isNaN = false := by decide
  obtain ⟨i, hi, hpeak, hgreatest, hfirst⟩ := peakFind_first_greatest _ 10.0 20.0 hne hnan
  have hle : i ≤ 1 := hfirst 1 (by decide) (by decide)
  have hbelow : ¬ (3.0 : Float32) ≤ 1.0 := by decide
  have hne0 : i ≠ 0 := by
    rintro rfl
    exact hbelow (by simpa using hgreatest 1 (by decide))
  obtain rfl : i = 1 := by omega
  exact ⟨⟨hne, hnan⟩, hpeak⟩

end SweptSpectrum.Dsp
