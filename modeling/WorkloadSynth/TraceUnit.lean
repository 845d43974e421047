import WorkloadSynth.Observation.Basic

/-!
# Trace units

A trace unit is what one trace is made from: a name and a slot for every day.  In daily mode every
observation is a unit of its own; in continuous mode the observations of a function are arranged on
the days of one unit.
-/

namespace WorkloadSynth

/-- How observations are turned into traces. -/
inductive TraceMode where
  /-- A trace of one day per observation. -/
  | daily
  /-- A trace of all days per function. -/
  | continuous
deriving DecidableEq, Repr

/-- Is a day whose fit failed kept with its reported constants?  Daily traces are dropped then. -/
def TraceMode.keepsFallbackDays (mode : TraceMode) : Bool := mode = .continuous

/-- What one trace is made from. -/
structure TraceUnit where
  name : String
  /-- The observation of each day, if there is one. -/
  slots : List (Option Observation)
deriving DecidableEq

namespace TraceUnit

/-- The first observation of each day from one to `days`; observations of other days are not
used. -/
def arrange (observations : List Observation) (days : Nat) : List (Option Observation) :=
  (List.range days).map fun k => observations.find? fun o => o.day = k + 1

/-- The observations of each function, functions in order of their first observation. -/
def groupByFunction (observations : List Observation) : List (String × List Observation) :=
  (observations.map (·.function)).eraseDups.map fun function =>
    (function, observations.filter fun o => o.function = function)

/-- The unit of a single observation. -/
def ofObservation (o : Observation) : TraceUnit := ⟨o.function ++ "(" ++ o.id ++ ")", [some o]⟩

/-- The unit of the observations of one function.  It is named by the first of them. -/
def ofGroup (days : Nat) (group : String × List Observation) : TraceUnit :=
  ⟨(group.2.head?.map (·.id)).getD "", arrange group.2 days⟩

/-- The units of a list of observations. -/
def ofObservations (mode : TraceMode) (days : Nat) (observations : List Observation) :
    List TraceUnit :=
  match mode with
  | .daily => observations.map ofObservation
  | .continuous => (groupByFunction observations).map (ofGroup days)

/-- The application of the first observed day. -/
def app? (slots : List (Option Observation)) : Option String :=
  slots.findSome? fun slot => slot.map (·.app)

end TraceUnit

end WorkloadSynth
