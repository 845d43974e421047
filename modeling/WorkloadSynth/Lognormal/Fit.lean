import WorkloadSynth.Lognormal.Quantile
import WorkloadSynth.Number.Style

/-!
# Lognormal parameters from a summary

The minimum and maximum of `n` lognormal draws sit, in log space, about `z` deviations below and
above the mean, where `z` is the expected position of the largest of `n` normal samples.  Their
spread fixes the deviation, and the identity `log mean = mu + sigma ^ 2 / 2` then fixes the
location, so that the fitted distribution has exactly the reported mean.  How far the extremes land
from where they should be gives the standard errors.
-/

namespace WorkloadSynth

/-! ## Summaries -/

/-- The reported summary of a positive quantity. -/
structure Summary where
  minimum : Float
  maximum : Float
  mean : Float
  count : Float
deriving DecidableEq

/-- Adds one to every statistic, so that summaries of idle functions stay admissible. -/
def Summary.shift (s : Summary) : Summary :=
  ⟨s.minimum + 1.0, s.maximum + 1.0, s.mean + 1.0, s.count + 1.0⟩

/-- The statistics that have to be positive. -/
inductive Statistic where
  | minimum
  | maximum
  | mean
deriving DecidableEq, Repr

/-- The name of a statistic in messages. -/
def Statistic.name : Statistic → String
  | .minimum => "min"
  | .maximum => "max"
  | .mean => "mean"

/-! ## Failures -/

/-- Why no lognormal could be fitted. -/
inductive FitError where
  | nonPositive (statistic : Statistic) (value : Float)
  | degenerateRange (minimum maximum : Float)
  | meanOutOfRange (minimum maximum mean : Float)
  | tooFewSamples (count : Float)
  | nonFinite (mu sigma : Float)
deriving DecidableEq

/-- A double inside a message. -/
def plainNumber (x : Float) : String := Double.write .plain x

/-- The wording of a failure. -/
def FitError.message : FitError → String
  | .nonPositive statistic value =>
    "summary statistic " ++ statistic.name ++ " = " ++ plainNumber value ++ " is not positive"
  | .degenerateRange minimum maximum =>
    "degenerate range: min " ++ plainNumber minimum ++ " >= max " ++ plainNumber maximum
  | .meanOutOfRange minimum maximum mean =>
    "mean " ++ plainNumber mean ++ " lies outside [" ++ plainNumber minimum ++ ", " ++
      plainNumber maximum ++ "]"
  | .tooFewSamples count => "need at least 2 samples, got " ++ plainNumber count
  | .nonFinite mu sigma =>
    "estimate produced non-finite parameters (mu = " ++ plainNumber mu ++ ", sigma = " ++
      plainNumber sigma ++ ")"

/-! ## Validation -/

/-- Refuses a statistic that is not positive; a NaN is not. -/
def requirePositive (statistic : Statistic) (value : Float) : Except FitError Unit :=
  if 0.0 < value then .ok () else .error (.nonPositive statistic value)

/-- Refuses inconsistent summaries, the first violated condition deciding the failure. -/
def Summary.validate (s : Summary) : Except FitError Unit := do
  requirePositive .minimum s.minimum
  requirePositive .maximum s.maximum
  requirePositive .mean s.mean
  if ¬ 2.0 ≤ s.count then throw (.tooFewSamples s.count)
  if s.maximum ≤ s.minimum then throw (.degenerateRange s.minimum s.maximum)
  if s.mean < s.minimum ∨ s.maximum < s.mean then
    throw (.meanOutOfRange s.minimum s.maximum s.mean)

/-! ## Estimation -/

/-- A lognormal distribution with the standard errors of its parameters. -/
structure Fit where
  mu : Float
  sigma : Float
  muError : Float
  sigmaError : Float
deriving DecidableEq

namespace Fit

/-- The mean of the fitted distribution. -/
def mean (f : Fit) : Float := Float.exp (f.mu + f.sigma * f.sigma / 2.0)

/-- The median of the fitted distribution. -/
def median (f : Fit) : Float := Float.exp f.mu

/-- The sum of squared residuals of the three equations for the extremes and the mean. -/
def residualSquares (logMin logMax logMean z mu sigma : Float) : Float :=
  let low := mu - z * sigma - logMin
  let high := mu + z * sigma - logMax
  let centre := mu + sigma * sigma / 2.0 - logMean
  0.0 + low * low + high * high + centre * centre

/-- The standard errors of location and deviation: three equations for two parameters leave one
degree of freedom, and the normal matrix of the system weighs it. -/
def standardErrors (residuals z sigma : Float) : Float × Float :=
  let corner := 2.0 * z * z + sigma * sigma
  let det := 3.0 * corner - sigma * sigma
  ((residuals * corner / det).sqrt, (residuals * 3.0 / det).sqrt)

end Fit

/-- Fits a lognormal to the summary as it is given, by a given logarithm. -/
def estimateWith (log : Float → Float) (s : Summary) : Except FitError Fit := do
  s.validate
  let z := extremePositionWith log s.count
  if ¬ 0.0 < z then throw (.tooFewSamples s.count)
  let logMin := log s.minimum
  let logMax := log s.maximum
  let logMean := log s.mean
  let sigma := (logMax - logMin) / (2.0 * z)
  let mu := logMean - sigma * sigma / 2.0
  if !mu.isFinite || !sigma.isFinite || sigma ≤ 0.0 then throw (.nonFinite mu sigma)
  let residuals := Fit.residualSquares logMin logMax logMean z mu sigma
  let (muError, sigmaError) := Fit.standardErrors residuals z sigma
  return { mu, sigma, muError, sigmaError }

/-- Fits a lognormal to the summary as it is given. -/
def estimate (s : Summary) : Except FitError Fit := estimateWith Float.log s

end WorkloadSynth
