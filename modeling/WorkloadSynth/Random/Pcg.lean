import WorkloadSynth.Random.Source

/-!
# The permuted congruential generator

A linear congruential generator on 128 bits whose output folds the two halves of the state together
and rotates them by the top six bits.  A 64-bit seed is stretched to state and increment by a
smaller generator of the same family.
-/

namespace WorkloadSynth

/-- State and increment of the generator; the increment is odd. -/
structure Pcg where
  state : BitVec 128
  increment : BitVec 128
deriving DecidableEq, Repr

namespace Pcg

/-- The multiplier of the 128-bit generator. -/
def multiplier : BitVec 128 := 0x2360ed051fc65da44385df649fccf645#128

/-- One step of the congruential generator. -/
def advance (g : Pcg) : Pcg := { g with state := g.state * multiplier + g.increment }

/-- Rotates a word to the right. -/
def rotateRight (w r : UInt64) : UInt64 := (w >>> r) ||| (w <<< (64 - r))

/-- The word that a state stands for. -/
def output (g : Pcg) : UInt64 :=
  let high := UInt64.ofBitVec (g.state.extractLsb' 64 64)
  let low := UInt64.ofBitVec (g.state.extractLsb' 0 64)
  let turn := UInt64.ofBitVec ((g.state >>> 122).setWidth 64)
  rotateRight (high ^^^ low) turn

/-- Steps, then reads the new state. -/
def next (g : Pcg) : UInt64 × Pcg :=
  let g := g.advance
  (g.output, g)

instance : RandomSource Pcg := ⟨next⟩

/-! ## Seeding -/

/-- The next state of the generator that stretches a seed. -/
def stretch (s : UInt64) : UInt64 := s * 6364136223846793005 + 11634580027462260723

/-- The 32-bit word that a stretching state stands for. -/
def stretchOutput (s : UInt64) : UInt64 :=
  let x := (((s >>> 18) ^^^ s) >>> 27) &&& 0xffffffff
  let r := s >>> 59
  ((x >>> r) ||| (x <<< (32 - r))) &&& 0xffffffff

/-- A 64-bit word from two stretched words, the earlier one below. -/
def stretchedWord (s : UInt64) : UInt64 × UInt64 :=
  let low := stretch s
  let high := stretch low
  (stretchOutput low ||| (stretchOutput high <<< 32), high)

/-- Two 64-bit words as one of 128 bits, the first below. -/
def joinWords (low high : UInt64) : BitVec 128 :=
  (high.toBitVec.setWidth 128 <<< 64) ||| low.toBitVec.setWidth 128

/-- The generator for a seed. -/
def ofSeed (seed : UInt64) : Pcg :=
  let (a, s) := stretchedWord seed
  let (b, s) := stretchedWord s
  let (c, s) := stretchedWord s
  let (d, _) := stretchedWord s
  let increment := joinWords c d ||| 1#128
  advance ⟨joinWords a b + increment, increment⟩

end Pcg

end WorkloadSynth
