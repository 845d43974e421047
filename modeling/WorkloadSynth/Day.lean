import WorkloadSynth.Column
import WorkloadSynth.Observation.Basic

/-!
# One synthesized day

`synthesizeDay` turns an observation into the three columns of its day.  Timers keep their observed
counts and other functions resample them.  Execution times and memory are drawn from lognormals
fitted to the shifted summaries; if either fit fails, both columns are the reported constants.
-/

namespace WorkloadSynth

/-- The columns of one observed day. -/
structure DayColumns where
  invocations : List Float
  execTimes : List Float
  memories : List Float
  /-- Why the reported constants were used instead of fitted distributions. -/
  fallback : Option FitError
deriving DecidableEq

/-- Where the invocation counts of a day come from. -/
def Observation.invocationSource (o : Observation) : ColumnSource :=
  if o.trigger.isTimer then .literal o.samples
  else
    match Ecdf.ofSamples o.samples with
    | some ecdf => .empirical ecdf
    | none => .constant 0.0

/-- The sources of execution times and memory, both fitted, or the first failure. -/
def Observation.fittedSources (o : Observation) :
    Except FitError (ColumnSource × ColumnSource) := do
  let exec ← estimate o.duration.summary.shift
  let memory ← estimate o.memory.summary.shift
  return (← ColumnSource.ofFit exec, ← ColumnSource.ofFit memory)

/-- Synthesizes the columns of an observed day.  Memory is reported per application and divided by
the number of its functions. -/
def synthesizeDay {σ : Type} [RandomSource σ] (o : Observation) (functionCount : UInt64) (s : σ) :
    DayColumns × σ :=
  let counts := o.invocationSource.generate minutesPerDay s
  let share := functionCount.toFloat
  match o.fittedSources with
  | .ok (exec, memory) =>
    let execTimes := exec.generate minutesPerDay counts.2
    let memories := memory.generate minutesPerDay execTimes.2
    ({ invocations := counts.1
       execTimes := execTimes.1
       memories := memories.1.map (· / share)
       fallback := none }, memories.2)
  | .error e =>
    let execTimes := (ColumnSource.constant o.duration.median).generate minutesPerDay counts.2
    let memories :=
      (ColumnSource.constant (o.memory.average / share)).generate minutesPerDay execTimes.2
    ({ invocations := counts.1
       execTimes := execTimes.1
       memories := memories.1
       fallback := some e }, memories.2)

end WorkloadSynth
