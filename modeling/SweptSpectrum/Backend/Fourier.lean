import SweptSpectrum.Sweep.Plan
import SweptSpectrum.Dsp.Analyzer

/-!
The discrete Fourier transform the command is built with, in double precision.

`X[k] = Σⱼ x[j] e^(-2πi jk/n)`. The transform splits its input by the smallest prime factor
`p` of `n` (decimation in time): the `p` subsequences `x[r], x[r+p], …` are transformed
recursively and combined with the twiddle factors `e^(-2πi rk/n)`. A prime length is
transformed directly. Each twiddle factor is computed from its own angle, reduced modulo `n`,
so no error accumulates along a row.

A length that is a power of two takes the same splitting in place, on separate arrays of real
and imaginary parts: the input in bit-reversed order, then passes that join pairs of
transforms of length `len / 2` into transforms of length `len`, with the twiddle factors of
the full length read from one table. The two ways differ in rounding only.

The analyzer's bins are widened to double precision, transformed, and each result rounded
back to single precision (`fourierFft`).
-/

namespace SweptSpectrum.Backend

open Dsp


/-- A complex number in double precision. -/
structure Complex where
  re : Float
  im : Float
  deriving Repr, Inhabited

namespace Complex

/-- Zero. -/
def zero : Complex := ⟨0.0, 0.0⟩

/-- The sum of two complex numbers. -/
def add (a b : Complex) : Complex := ⟨a.re + b.re, a.im + b.im⟩

/-- The product of two complex numbers. -/
def mul (a b : Complex) : Complex := ⟨a.re * b.re - a.im * b.im, a.re * b.im + a.im * b.re⟩

end Complex

/-- The twiddle factor `e^(-2πi k/n)`. -/
def twiddle (k n : Nat) : Complex :=
  let angle := -2.0 * pi64 * Sweep.asFloat (k % n) / Sweep.asFloat n
  ⟨angle.cos, angle.sin⟩

/-- The smallest divisor of `n` from `d` on that is at least 2, trying at most `fuel`
candidates; `n` itself when none is found. -/
def smallestFactorFrom (n : Nat) : Nat → Nat → Nat
  | 0, _ => n
  | fuel + 1, d => if d * d > n then n else if n % d = 0 then d else smallestFactorFrom n fuel (d + 1)

/-- The smallest prime factor of `n ≥ 2` (and `n` itself for smaller `n`). -/
def smallestFactor (n : Nat) : Nat := smallestFactorFrom n n 2

/-- Sums `f r` for `r < count`, from `r = 0` up. -/
def sumRange (count : Nat) (f : Nat → Complex) : Complex :=
  (List.range count).foldl (fun acc r => acc.add (f r)) Complex.zero

/-- The transform by its definition, `n²` products. -/
def directTransform (xs : Array Complex) : Array Complex :=
  let n := xs.size
  (Array.range n).map fun k => sumRange n fun j => (xs.getD j .zero).mul (twiddle (j * k) n)

/-- The transform, splitting on the smallest prime factor at most `depth` times. -/
def transformWith : Nat → Array Complex → Array Complex
  | 0, xs => directTransform xs
  | depth + 1, xs =>
    let n := xs.size
    let p := smallestFactor n
    if n < 2 || p = n then directTransform xs
    else
      let m := n / p
      let parts := (Array.range p).map fun r =>
        transformWith depth ((Array.range m).map fun j => xs.getD (j * p + r) .zero)
      (Array.range n).map fun k =>
        sumRange p fun r => (twiddle (r * k) n).mul ((parts.getD r #[]).getD (k % m) .zero)

/-- The discrete Fourier transform, splitting on prime factors. A length has fewer prime
factors than bits, so splitting `size` times never runs out. -/
def transform (xs : Array Complex) : Array Complex := transformWith xs.size xs

/-! ### Lengths that are powers of two -/

/-- The base-two logarithm of `n` if `n` is a power of two. -/
def exponentOfTwo? (n : Nat) : Option Nat :=
  let k := n.log2
  if 2 ^ k = n then some k else none

/-- The twiddle factors `e^(-2πi k/n)` for `k < n / 2`, real and imaginary parts interleaved. -/
def twiddleTable (n : Nat) : FloatArray :=
  (List.range (n / 2)).foldl (fun t k =>
    let w := twiddle k n
    (t.push w.re).push w.im) (FloatArray.emptyWithCapacity n)

/-- The lowest `bits` bits of `i` in reverse order, appended to the bits of `acc`. -/
def reverseBitsOnto : Nat → Nat → Nat → Nat
  | 0, _, acc => acc
  | bits + 1, i, acc => reverseBitsOnto bits (i / 2) (2 * acc + i % 2)

/-- The lowest `bits` bits of `i` in reverse order. -/
def reverseBits (bits i : Nat) : Nat := reverseBitsOnto bits i 0

/-- Interleaved complex entries in bit-reversed order of their indices, which have `bits`
bits. -/
def bitReversed (bits : Nat) (a : FloatArray) : FloatArray :=
  (List.range (a.size / 2)).foldl (fun out i =>
    let j := reverseBits bits i
    (out.push (a.get! (2 * j))).push (a.get! (2 * j + 1))) (FloatArray.emptyWithCapacity a.size)

/-- The butterflies `j, j + 1, …` (`count` of them) of the block at `start` whose halves are
`half` apart, on interleaved entries; butterfly `j` takes twiddle factor `j * stride`. -/
def butterflies (t : FloatArray) (start half stride : Nat) : Nat → Nat → FloatArray → FloatArray
  | 0, _, a => a
  | count + 1, j, a =>
    let i := 2 * (start + j)
    let k := i + 2 * half
    let wr := t.get! (2 * (j * stride))
    let wi := t.get! (2 * (j * stride) + 1)
    let xr := a.get! k
    let xi := a.get! (k + 1)
    let vr := xr * wr - xi * wi
    let vi := xr * wi + xi * wr
    let ur := a.get! i
    let ui := a.get! (i + 1)
    let a := (((a.set! i (ur + vr)).set! (i + 1) (ui + vi)).set! k (ur - vr)).set! (k + 1) (ui - vi)
    butterflies t start half stride count (j + 1) a

/-- The blocks `b, b + 1, …` (`count` of them) of length `2 * half` of one pass. -/
def blockPass (t : FloatArray) (half stride : Nat) : Nat → Nat → FloatArray → FloatArray
  | 0, _, a => a
  | count + 1, b, a => blockPass t half stride count (b + 1) (butterflies t (b * 2 * half) half stride half 0 a)

/-- The passes for block lengths `2 ^ (s + 1)`, …, `2 ^ bits`, from `s` on. -/
def passes (t : FloatArray) (bits : Nat) : Nat → Nat → FloatArray → FloatArray
  | 0, _, a => a
  | count + 1, s, a =>
    let blocks := 2 ^ (bits - s - 1)
    passes t bits count (s + 1) (blockPass t (2 ^ s) blocks blocks 0 a)

/-- The transform of `2 ^ bits` interleaved complex entries. -/
def transformPow2 (bits : Nat) (a : FloatArray) : FloatArray :=
  passes (twiddleTable (2 ^ bits)) bits bits 0 (bitReversed bits a)

/-- The transform of interleaved complex entries: real part, imaginary part, and so on. -/
def transformInterleaved (a : FloatArray) : FloatArray :=
  match exponentOfTwo? (a.size / 2) with
  | some bits => transformPow2 bits a
  | none =>
    let xs := (Array.range (a.size / 2)).map fun i => (⟨a.get! (2 * i), a.get! (2 * i + 1)⟩ : Complex)
    (transform xs).foldl (fun out c => (out.push c.re).push c.im) (FloatArray.emptyWithCapacity a.size)

/-- The transform of single-precision bins: widened, transformed, each bin rounded back. -/
def spectrumOf (input : Array Bin) : Array Bin :=
  let a := input.foldl (fun a b => (a.push b.re.toFloat).push b.im.toFloat)
    (FloatArray.emptyWithCapacity (2 * input.size))
  let a := transformInterleaved a
  (Array.range input.size).map fun i => ⟨(a.get! (2 * i)).toFloat32, (a.get! (2 * i + 1)).toFloat32⟩

theorem size_spectrumOf (input : Array Bin) : (spectrumOf input).size = input.size := by
  simp [spectrumOf]

/-- The transform as the analyzer takes it. -/
def fourierFft : Fft := ⟨spectrumOf, size_spectrumOf⟩

end SweptSpectrum.Backend
