import WorkloadSynth.Ecdf
import WorkloadSynth.Lognormal.Fit
import WorkloadSynth.Random.Normal

/-!
# Columns of a trace

A column holds one non-negative number per minute.  `ColumnSource` says where its values come from:
independent draws from a distribution, observed values, or one constant.
-/

namespace WorkloadSynth

/-- Puts negative values, and the NaN, at zero. -/
def floorAtZero (x : Float) : Float := if 0.0 < x then x else 0.0

/-- Where the values of a column come from. -/
inductive ColumnSource where
  /-- Independent lognormal draws. -/
  | lognormal (mu sigma : Float)
  /-- Independent draws from an empirical distribution. -/
  | empirical (ecdf : Ecdf)
  /-- Observed values as they are. -/
  | literal (values : List Float)
  /-- The same value in every minute. -/
  | constant (value : Float)
deriving DecidableEq

namespace ColumnSource

/-- Draws from a fitted distribution; its deviation has to be finite. -/
def ofFit (fit : Fit) : Except FitError ColumnSource :=
  if fit.sigma.isFinite then .ok (.lognormal fit.mu fit.sigma)
  else .error (.nonFinite fit.mu fit.sigma)

/-- Produces a column of `n` values.  Observed values keep their own number, so that a wrong one
shows when the column meets the grid. -/
def generate {σ : Type} [RandomSource σ] (source : ColumnSource) (n : Nat) (s : σ) :
    List Float × σ :=
  match source with
  | .lognormal mu sigma =>
    let (xs, s) := drawMany (Ziggurat.lognormal mu sigma) n s
    (xs.map floorAtZero, s)
  | .empirical ecdf =>
    let (xs, s) := drawMany ecdf.draw n s
    (xs.map floorAtZero, s)
  | .literal values => (values.map floorAtZero, s)
  | .constant value => (List.replicate n (floorAtZero value), s)

end ColumnSource

/-- Draws `n` values from a fitted distribution. -/
def sampleLognormal {σ : Type} [RandomSource σ] (fit : Fit) (n : Nat) (s : σ) :
    Except FitError (List Float) × σ :=
  match ColumnSource.ofFit fit with
  | .ok source =>
    let (xs, s) := source.generate n s
    (.ok xs, s)
  | .error e => (.error e, s)

/-- Draws `n` values from an empirical distribution. -/
def sampleEmpirical {σ : Type} [RandomSource σ] (ecdf : Ecdf) (n : Nat) (s : σ) :
    List Float × σ :=
  drawMany (fun s => let (x, s) := ecdf.draw s; (floorAtZero x, s)) n s

end WorkloadSynth
