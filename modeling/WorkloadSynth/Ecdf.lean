import WorkloadSynth.Number.Double
import WorkloadSynth.Random.Source

/-!
# Empirical distributions

The distribution function of a list of samples as a step function: distinct values in increasing
order, each with the share of samples up to it.  Equal samples collapse to one step.  The inverse
interpolates between neighbouring steps, and a random draw is the inverse at a uniform number.
-/

namespace WorkloadSynth

/-- A jump of the distribution function. -/
structure EcdfStep where
  /-- Where the jump is. -/
  value : Float
  /-- The share of samples up to and including `value`. -/
  cumulative : Float
deriving DecidableEq

/-- A step function with at least one step. -/
structure Ecdf where
  first : EcdfStep
  rest : List EcdfStep
deriving DecidableEq

namespace Ecdf

/-! ## Construction -/

/-- The steps of a sorted list whose first element is the sample with the given rank.  A run of
equal samples keeps its first value and its last share. -/
def stepsFrom (total : Nat) : Nat → List Float → List EcdfStep
  | _, [] => []
  | rank, x :: rest =>
    let own : EcdfStep := ⟨x, Float.ofNat rank / Float.ofNat total⟩
    match stepsFrom total (rank + 1) rest with
    | [] => [own]
    | next :: steps =>
      if x == next.value then { next with value := x } :: steps else own :: next :: steps

/-- The empirical distribution of the finite samples, if there are any. -/
def ofSamples (samples : List Float) : Option Ecdf :=
  let sorted := (samples.filter Float.isFinite).mergeSort Double.totalLe
  match stepsFrom sorted.length 1 sorted with
  | [] => none
  | first :: rest => some { first, rest }

/-- All steps in order. -/
def steps (e : Ecdf) : List EcdfStep := e.first :: e.rest

/-- The distinct sample values in increasing order. -/
def values (e : Ecdf) : List Float := e.steps.map (·.value)

/-- The share of samples up to each distinct value. -/
def cumulative (e : Ecdf) : List Float := e.steps.map (·.cumulative)

/-! ## Distribution function and inverse -/

/-- The share of samples that are at most `x`. -/
def cdf (e : Ecdf) (x : Float) : Float :=
  match (e.steps.takeWhile fun s => s.value ≤ x).getLast? with
  | some s => s.cumulative
  | none => 0.0

/-- The point at height `p` on the line between two steps. -/
def interpolate (low high : EcdfStep) (p : Float) : Float :=
  low.value + (p - low.cumulative) / (high.cumulative - low.cumulative) * (high.value - low.value)

/-- Looks for the first step that reaches `p` behind one that does not. -/
def inverseAfter (p : Float) (below : EcdfStep) : List EcdfStep → Float
  | [] => below.value
  | s :: rest => if s.cumulative < p then inverseAfter p s rest else interpolate below s p

/-- The interpolated inverse.  Probabilities up to the first step give the smallest value, those
above the last step the largest. -/
def inverse (e : Ecdf) (p : Float) : Float :=
  if p ≤ e.first.cumulative then e.first.value else inverseAfter p e.first e.rest

/-! ## Draws -/

/-- A draw by inversion; it takes one word. -/
def draw {σ : Type} [RandomSource σ] (e : Ecdf) (s : σ) : Float × σ :=
  let (w, s) := RandomSource.next s
  (e.inverse (unitInterval w), s)

end Ecdf

end WorkloadSynth
