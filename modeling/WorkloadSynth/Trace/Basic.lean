import WorkloadSynth.Error
import WorkloadSynth.Observation.Basic

/-!
# Traces

A trace has one row per interval of a timestamp grid.  `grid` lays the timestamps out, `assemble`
joins them with sampled columns and the provisioned resources, and `simulationEnd` says when the
last invocation of a trace is over.
-/

namespace WorkloadSynth

/-- Milliseconds in a minute. -/
def minuteMs : UInt64 := 60000

/-- Milliseconds in a day. -/
def dayMs : UInt64 := 86400000

/-- Resources granted to every row of a trace. -/
structure Provisioning where
  /-- Megahertz. -/
  cpu : UInt64
  /-- Megabytes. -/
  memory : UInt64
deriving DecidableEq, Repr

/-- The resources granted unless others are asked for. -/
def Provisioning.standard : Provisioning := ⟨100, 256⟩

/-- One row of a trace. -/
structure Sample where
  /-- The end of the interval, in milliseconds. -/
  time : UInt64
  invocations : UInt64
  /-- The average execution time of an invocation. -/
  exec : UInt64
  cpuProvisioned : UInt64
  memProvisioned : UInt64
  cpuUsed : Float
  memUsed : Float
deriving DecidableEq

/-- A trace is its rows in order of time. -/
abbrev Trace := List Sample

/-- The sampled columns of a trace. -/
structure Columns where
  invocations : List Float
  execTimes : List Float
  memories : List Float
deriving DecidableEq

/-- Columns of zeros. -/
def Columns.zeros (n : Nat) : Columns :=
  ⟨List.replicate n 0.0, List.replicate n 0.0, List.replicate n 0.0⟩

/-! ## Grid -/

/-- How many intervals cover a duration. -/
def gridSize (duration interval : UInt64) : Nat :=
  (duration.toNat + interval.toNat - 1) / interval.toNat

/-- The timestamps at the ends of the intervals that cover a duration. -/
def grid (duration interval : UInt64) : Except Error (List UInt64) :=
  if interval = 0 then .error (.invalidConfig "trace interval must be positive")
  else .ok ((List.range (gridSize duration interval)).map fun i => UInt64.ofNat (i + 1) * interval)

/-! ## Assembly -/

/-- Refuses a column that does not fit the grid. -/
def checkColumn (function : String) (expected : Nat) (column : ColumnName) (values : List Float) :
    Except Error Unit :=
  if values.length = expected then .ok ()
  else .error (.schemaMismatch function column expected values.length)

/-- One row from a timestamp and sampled values.  Counts and times are cut to whole numbers; memory
stays a double but carries whole megabytes. -/
def sampleRow (provisioning : Provisioning) (time : UInt64) (invocations exec memory : Float) :
    Sample where
  time
  invocations := invocations.toUInt64
  exec := exec.toUInt64
  cpuProvisioned := provisioning.cpu
  memProvisioned := provisioning.memory
  cpuUsed := 0.0
  memUsed := Double.truncate memory

/-- Joins a grid with sampled columns of the same length. -/
def assemble (function : String) (grid : List UInt64) (columns : Columns)
    (provisioning : Provisioning) : Except Error Trace := do
  checkColumn function grid.length .invocations columns.invocations
  checkColumn function grid.length .execTimes columns.execTimes
  checkColumn function grid.length .memories columns.memories
  let values := columns.invocations.zip (columns.execTimes.zip columns.memories)
  return (grid.zip values).map fun (time, invocations, exec, memory) =>
    sampleRow provisioning time invocations exec memory

/-! ## End of the simulation -/

/-- When the invocations of a row are over, in seconds. -/
def Sample.endSeconds (s : Sample) : Float := (s.time + s.exec).toFloat / 1000.0

/-- The later of the end so far and the end of a row; rows without invocations do not count. -/
def laterEnd (latest : Option Float) (s : Sample) : Option Float :=
  if s.invocations = 0 then latest
  else
    match latest with
    | none => some s.endSeconds
    | some e => if e < s.endSeconds then some s.endSeconds else some e

/-- When the last invocation of a trace is over, in seconds. -/
def simulationEnd (trace : Trace) : Option Float := trace.foldl laterEnd none

end WorkloadSynth
