/-!
# The quantile function of the normal distribution

Acklam's rational approximation: a quotient of polynomials around the median and another in the
tails, with relative error below `1.2e-9` inside the unit interval.  The tails take a logarithm,
which is an argument.
-/

namespace WorkloadSynth

namespace NormalQuantile

/-- Where the lower tail ends and, mirrored, the upper one begins. -/
def tailProbability : Float := 0.02425

/-- The approximation in a tail, in terms of `sqrt (-2 * log p)`. -/
def tail (q : Float) : Float :=
  (((((-7.784894002430293e-03 * q + -3.223964580411365e-01) * q + -2.400758277161838e+00) * q
      + -2.549732539343734e+00) * q + 4.374664141464968e+00) * q + 2.938163982698783e+00)
    / ((((7.784695709041462e-03 * q + 3.224671290700398e-01) * q + 2.445134137142996e+00) * q
      + 3.754408661907416e+00) * q + 1.0)

/-- The approximation around the median, in terms of the distance of the probability from it. -/
def centre (q : Float) : Float :=
  let r := q * q
  (((((-3.969683028665376e+01 * r + 2.209460984245205e+02) * r + -2.759285104469687e+02) * r
      + 1.383577518672690e+02) * r + -3.066479806614716e+01) * r + 2.506628277459239e+00) * q
    / (((((-5.447609879822406e+01 * r + 1.615858368580409e+02) * r + -1.556989798598866e+02) * r
      + 6.680131188771972e+01) * r + -1.328068155288572e+01) * r + 1.0)

end NormalQuantile

/-! ## With any logarithm -/

/-- The standard normal quantile by a given logarithm; infinite outside the open unit interval. -/
def normalQuantileWith (log : Float → Float) (p : Float) : Float :=
  if p ≤ 0.0 then -1.0 / 0.0
  else if 1.0 ≤ p then 1.0 / 0.0
  else if p < NormalQuantile.tailProbability then NormalQuantile.tail (-2.0 * log p).sqrt
  else if p ≤ 1.0 - NormalQuantile.tailProbability then NormalQuantile.centre (p - 0.5)
  else -NormalQuantile.tail (-2.0 * log (1.0 - p)).sqrt

/-- The expected standardized position of the largest of `n` normal samples, by Blom's plotting
position. -/
def extremePositionWith (log : Float → Float) (n : Float) : Float :=
  normalQuantileWith log ((n - 0.375) / (n + 0.25))

/-! ## With the logarithm of doubles -/

/-- The standard normal quantile. -/
def normalQuantile (p : Float) : Float := normalQuantileWith Float.log p

/-- The position of the largest of `n` normal samples. -/
def extremePosition (n : Float) : Float := extremePositionWith Float.log n

end WorkloadSynth
