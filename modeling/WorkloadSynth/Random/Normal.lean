import WorkloadSynth.Random.Source
import WorkloadSynth.Random.Normal.Layers

/-!
# Normal and lognormal draws

A standard normal draw by the ziggurat method: a word picks a layer and a point in it; a point left
of the next edge is taken at once, a point in the base layer beyond the last edge is replaced by a
draw from the tail, and a point in the sliver between is taken with the density's probability.  A
lognormal draw is the exponential of a scaled and shifted normal one.

Rejection has no bound, so the loops carry a fuel of `maxTries`; a source would have to reject that
many times in a row, at about one chance in eighty each, before it is used up.
-/

namespace WorkloadSynth.Ziggurat

/-- How many rejections in a row are waited for. -/
def maxTries : Nat := 4096

/-- Where the tail begins. -/
def tailStart : Float := 3.654152885361008796

/-- A uniform number in `[-1, 1)` from the upper fifty-two bits of a word. -/
def signedUnit (w : UInt64) : Float :=
  Float.ofBits ((0x4000000000000000 : UInt64) ||| (w >>> 12)) - 3.0

/-- A uniform number in the open interval from zero to one. -/
def openUnit (w : UInt64) : Float :=
  Float.ofBits ((0x3ff0000000000000 : UInt64) ||| (w >>> 12)) - Float.ofBits 0x3fefffffffffffff

/-- Draws a distance beyond the start of the tail until the density accepts it. -/
def tailDistance {σ : Type} [RandomSource σ] : Nat → σ → Float × σ
  | 0, s => (0, s)
  | fuel + 1, s =>
    let (a, s) := RandomSource.next s
    let (b, s) := RandomSource.next s
    let x := Float.log (openUnit a) / tailStart
    let y := Float.log (openUnit b)
    if -2.0 * y < x * x then tailDistance fuel s else (x, s)

/-- A draw from the tail on the side of `u`. -/
def tail {σ : Type} [RandomSource σ] (u : Float) (s : σ) : Float × σ :=
  let (x, s) := tailDistance maxTries s
  (if u < 0.0 then x - tailStart else tailStart - x, s)

/-- Draws points until one is accepted. -/
def normalTries {σ : Type} [RandomSource σ] : Nat → σ → Float × σ
  | 0, s => (0, s)
  | fuel + 1, s =>
    let (w, s) := RandomSource.next s
    let layer := (w &&& 0xff).toNat
    let u := signedUnit w
    let x := u * edges.getD layer 0
    if x.abs < edges.getD (layer + 1) 0 then (x, s)
    else if layer = 0 then tail u s
    else
      let (v, s) := RandomSource.next s
      let low := heights.getD layer 0
      let high := heights.getD (layer + 1) 0
      if high + (low - high) * fineUnitInterval v < Float.exp (-x * x / 2.0) then (x, s)
      else normalTries fuel s

/-- A standard normal draw. -/
def normal {σ : Type} [RandomSource σ] (s : σ) : Float × σ := normalTries maxTries s

/-- A draw whose logarithm is normal with the given mean and deviation. -/
def lognormal {σ : Type} [RandomSource σ] (mu sigma : Float) (s : σ) : Float × σ :=
  let (z, s) := normal s
  (Float.exp (mu + sigma * z), s)

end WorkloadSynth.Ziggurat
