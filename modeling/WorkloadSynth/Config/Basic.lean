import WorkloadSynth.Path
import WorkloadSynth.TraceUnit
import WorkloadSynth.Trace.Basic

/-!
# Configurations

What a run is about: the task files of its shards, the application table, where results go, and how
traces are made.
-/

namespace WorkloadSynth

/-- The configuration of a run. -/
structure Config where
  mode : TraceMode
  /-- How many days a continuous trace covers. -/
  days : Nat
  provisioning : Provisioning
  /-- Shard `i` is seeded with `randomSeed + i`. -/
  randomSeed : UInt64
  /-- How many workers are asked for; none leaves the choice to the machine. -/
  workers : Option Nat
  /-- The task file of each shard. -/
  tasks : List Path
  apps : Path
  outputDir : Path
  indexDir : Path
deriving DecidableEq, Repr

namespace Config

/-- The configuration before anything is asked for. -/
def standard : Config where
  mode := .continuous
  days := 7
  provisioning := .standard
  randomSeed := 1
  workers := none
  tasks := []
  apps := ⟨"apps.csv"⟩
  outputDir := ⟨"converted"⟩
  indexDir := ⟨"."⟩

/-- How many days each trace covers. -/
def traceDays (c : Config) : Nat :=
  match c.mode with
  | .daily => 1
  | .continuous => c.days

/-- The time that each trace covers, in milliseconds. -/
def durationMs (c : Config) : UInt64 := UInt64.ofNat c.traceDays * dayMs

/-- The audit index file of a shard. -/
def indexPath (c : Config) (shard : Nat) : Path :=
  c.indexDir.join ⟨"indices" ++ toString shard ++ ".csv"⟩

/-- The file of a trace. -/
def tracePath (c : Config) (name : String) : Path := c.outputDir.join ⟨name ++ ".csv"⟩

end Config

end WorkloadSynth
