/-!
The pseudo-random generator the simulator is built with: ChaCha with 12 rounds.

The 256-bit key is derived from a 64-bit seed by eight steps of a PCG32 generator, each
giving one key word. Blocks are produced with a 64-bit block counter from zero and a zero
nonce, and their sixteen words are handed out in order, so word `k` of the stream is word
`k % 16` of block `k / 16`; each draw takes one word.

A float uniform on `[low, high]` is drawn from the top 23 bits of a word as a value in
`[0, 1)`, scaled and shifted. The scale starts at `(high - low) / m`, with `m` the largest
value in `[0, 1)` that can be drawn, and is lowered one step at a time until the largest
possible draw no longer exceeds `high`.
-/

namespace SweptSpectrum.Backend

/-- Rotates a word left by `n` bits. -/
def rotl (x : UInt32) (n : UInt32) : UInt32 := (x <<< n) ||| (x >>> (32 - n))

/-- The ChaCha quarter round on the words at four positions of the state. -/
def quarterRound (s : Array UInt32) (a b c d : Nat) : Array UInt32 :=
  let xa := s.getD a 0
  let xb := s.getD b 0
  let xc := s.getD c 0
  let xd := s.getD d 0
  let xa := xa + xb
  let xd := rotl (xd ^^^ xa) 16
  let xc := xc + xd
  let xb := rotl (xb ^^^ xc) 12
  let xa := xa + xb
  let xd := rotl (xd ^^^ xa) 8
  let xc := xc + xd
  let xb := rotl (xb ^^^ xc) 7
  ((s.setIfInBounds a xa).setIfInBounds b xb |>.setIfInBounds c xc).setIfInBounds d xd

/-- A column round followed by a diagonal round. -/
def doubleRound (s : Array UInt32) : Array UInt32 :=
  let s := quarterRound s 0 4 8 12
  let s := quarterRound s 1 5 9 13
  let s := quarterRound s 2 6 10 14
  let s := quarterRound s 3 7 11 15
  let s := quarterRound s 0 5 10 15
  let s := quarterRound s 1 6 11 12
  let s := quarterRound s 2 7 8 13
  quarterRound s 3 4 9 14

/-- The words `"expand 32-byte k"` that open every block. -/
def sigma : Array UInt32 := #[0x61707865, 0x3320646e, 0x79622d32, 0x6b206574]

/-- Block number `counter` of the key stream: six double rounds, then the input added. -/
def chachaBlock (key : Array UInt32) (counter : UInt64) : Array UInt32 :=
  let input := sigma ++ key ++ #[counter.toUInt32, (counter >>> 32).toUInt32, 0, 0]
  let mixed := (List.range 6).foldl (fun s _ => doubleRound s) input
  (mixed.zip input).map fun (x, y) => x + y

/-- The PCG32 output of a state. -/
def pcgOutput (state : UInt64) : UInt32 :=
  let xorshifted := (((state >>> 18) ^^^ state) >>> 27).toUInt32
  let rot := (state >>> 59).toUInt32
  (xorshifted >>> rot) ||| (xorshifted <<< ((32 - rot) % 32))

/-- The key derived from a 64-bit seed. -/
def keyOfSeed (seed : UInt64) : Array UInt32 :=
  let step := fun (s : UInt64) => s * 6364136223846793005 + 11634580027462260723
  let (_, words) := (List.range 8).foldl (fun (s, acc) _ =>
    let s := step s
    (s, acc.push (pcgOutput s))) (seed, #[])
  words

/-- The largest value in `[0, 1)` a word can be turned into. -/
def maxDraw : Float32 := Float32.ofBits 0x3fffffff - 1.0

/-- The scale of a uniform draw on `[low, high]`, lowered until no draw exceeds `high`; a few
steps suffice since the first guess is off by rounding only. -/
def uniformScale (low high : Float32) : Float32 :=
  let rec lower : Nat → Float32 → Float32
    | 0, scale => scale
    | fuel + 1, scale =>
      if scale * maxDraw + low > high then lower fuel (Float32.ofBits (scale.toBits - 1)) else scale
  lower 64 ((high - low) / maxDraw)

/-- Word `k` of the key stream. -/
def streamWord (key : Array UInt32) (k : Nat) : UInt32 :=
  (chachaBlock key (k / 16).toUInt64).getD (k % 16) 0

/-- The draws of the generator seeded with `seed`: draw `k`, uniform on `[low, high]`, is made
from word `k` of the stream. -/
def chachaDraws (seed : UInt64) : Nat → Float32 → Float32 → Float32 :=
  let key := keyOfSeed seed
  fun k low high =>
    let value := Float32.ofBits ((streamWord key k >>> 9) ||| 0x3f800000) - 1.0
    value * uniformScale low high + low

end SweptSpectrum.Backend
