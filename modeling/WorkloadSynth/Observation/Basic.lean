import WorkloadSynth.Lognormal.Fit

/-!
# Observations

An observation is what was recorded about one function on one day: its trigger, an invocation count
for every minute, and summaries of execution time and of the memory of its application.
-/

namespace WorkloadSynth

/-- One-minute steps in a day. -/
def minutesPerDay : Nat := 1440

/-! ## Triggers -/

/-- What starts a function. -/
inductive Trigger where
  | http
  | timer
  | event
  | queue
  | storage
  | orchestration
  | other (name : String)
deriving DecidableEq, Repr

/-- The trigger with a recorded name. -/
def Trigger.ofName : String → Trigger
  | "http" => .http
  | "timer" => .timer
  | "event" => .event
  | "queue" => .queue
  | "storage" => .storage
  | "orchestration" => .orchestration
  | name => .other name

/-- Timers run on schedule, so their counts are never resampled. -/
def Trigger.isTimer (t : Trigger) : Bool := t = .timer

/-! ## Summaries -/

/-- Execution times of one function on one day, in milliseconds.  The percentiles are those of the
per-minute averages. -/
structure DurationStats where
  average : Float
  count : Float
  minimum : Float
  maximum : Float
  p0 : Float
  p1 : Float
  p25 : Float
  p50 : Float
  p75 : Float
  p99 : Float
  p100 : Float
deriving DecidableEq

namespace DurationStats

/-- The reported median. -/
def median (d : DurationStats) : Float := d.p50

/-- The percentiles in increasing order. -/
def percentiles (d : DurationStats) : List Float :=
  [d.p0, d.p1, d.p25, d.p50, d.p75, d.p99, d.p100]

/-- What a lognormal is fitted to. -/
def summary (d : DurationStats) : Summary := ⟨d.minimum, d.maximum, d.average, d.count⟩

end DurationStats

/-- Allocated memory of the function's application on one day, in megabytes. -/
structure MemoryStats where
  sampleCount : Float
  average : Float
  p1 : Float
  p5 : Float
  p25 : Float
  p50 : Float
  p75 : Float
  p95 : Float
  p99 : Float
  p100 : Float
deriving DecidableEq

namespace MemoryStats

/-- The percentiles in increasing order. -/
def percentiles (m : MemoryStats) : List Float :=
  [m.p1, m.p5, m.p25, m.p50, m.p75, m.p95, m.p99, m.p100]

/-- What a lognormal is fitted to: the outermost percentiles stand for the extremes. -/
def summary (m : MemoryStats) : Summary := ⟨m.p1, m.p100, m.average, m.sampleCount⟩

end MemoryStats

/-! ## Observations -/

/-- One function on one day. -/
structure Observation where
  owner : String
  app : String
  function : String
  trigger : Trigger
  /-- The invocation count of every minute. -/
  invocations : List UInt64
  duration : DurationStats
  memory : MemoryStats
  /-- The day of the observation, counted from one. -/
  day : Nat
  /-- The name of the trace made from it. -/
  id : String
deriving DecidableEq

/-- The invocation counts as samples. -/
def Observation.samples (o : Observation) : List Float := o.invocations.map UInt64.toFloat

end WorkloadSynth
