/-!
# Sources of random words

A random source is a state with a step that yields a 64-bit word and the next state.  Every random
function of the library takes a state and returns the state it leaves, so how many words it used is
part of its meaning.
-/

namespace WorkloadSynth

/-- A state from which 64-bit words are drawn. -/
class RandomSource (σ : Type) where
  /-- The next word and the state behind it. -/
  next : σ → UInt64 × σ

/-- Repeats a draw `n` times, first value first. -/
def drawMany {σ α : Type} (draw : σ → α × σ) : Nat → σ → List α × σ
  | 0, s => ([], s)
  | n + 1, s =>
    let (x, s) := draw s
    let (xs, s) := drawMany draw n s
    (x :: xs, s)

/-- A uniform number in `[0, 1)` from the upper fifty-two bits of a word. -/
def unitInterval (w : UInt64) : Float := (w >>> 12).toFloat / 4503599627370496.0

/-- A uniform number in `[0, 1)` from the upper fifty-three bits of a word. -/
def fineUnitInterval (w : UInt64) : Float := (w >>> 11).toFloat / 9007199254740992.0

/-! ## A fixed cycle of words -/

/-- The words of a list, over and over.  An empty list yields zeros. -/
structure WordCycle where
  words : List UInt64
  /-- What is left of the current round. -/
  rest : List UInt64

/-- The cycle that starts at the first word. -/
def WordCycle.ofList (words : List UInt64) : WordCycle := ⟨words, words⟩

/-- The next word of a cycle; behind the last word comes the first. -/
def WordCycle.next (c : WordCycle) : UInt64 × WordCycle :=
  match c.rest with
  | w :: rest => (w, { c with rest })
  | [] =>
    match c.words with
    | w :: rest => (w, { c with rest })
    | [] => (0, c)

instance : RandomSource WordCycle := ⟨WordCycle.next⟩

end WorkloadSynth
