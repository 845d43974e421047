import WorkloadSynth.AuditIndex.Merge
import WorkloadSynth.FileSystem.Action
import WorkloadSynth.Generate
import WorkloadSynth.Observation.Row
import WorkloadSynth.Pool
import WorkloadSynth.Random.Pcg
import WorkloadSynth.Trace.File

/-!
# Shards

A shard is one task file of observations.  Its traces and its audit index are written to files;
nothing is written unless the task can be read and every application in it is known.  The shards of
a configuration are independent of each other, and their indices can be merged afterwards.
-/

namespace WorkloadSynth

/-! ## One shard -/

/-- Reads a file and its contents. -/
def readWith {α : Type} (p : Path) (parse : Bytes → Except Error α) :
    FileAction (Except Error α) := do
  match ← FileAction.readFile p with
  | .error e => return .error (.csv (.file e))
  | .ok contents => return parse contents

/-- Writes a table file. -/
def writeTable (p : Path) (contents : Bytes) : FileAction (Except Error Unit) := do
  match ← FileAction.writeFile p contents with
  | .error e => return .error (.csv (.file e))
  | .ok () => return .ok ()

/-- Makes a directory for results. -/
def prepareDirectory (p : Path) : FileAction (Except Error Unit) := do
  match ← FileAction.createDirectories p with
  | .error e => return .error (.file e)
  | .ok () => return .ok ()

/-- Writes a generated trace to its file. -/
def writeTrace (config : Config) (t : GeneratedTrace) : FileAction (Except Error Unit) :=
  writeTable (config.tracePath t.name) (Trace.toBytes t.trace)

/-- The random source of a shard. -/
def shardSource (config : Config) (shard : Nat) : Pcg :=
  .ofSeed (config.randomSeed + UInt64.ofNat shard)

/-- Generates the traces of observations that have been read and checked, and writes the audit
index behind them. -/
def writeShard (apps : AppTable) (config : Config) (shard : Nat)
    (observations : List Observation) : ExceptT Error FileAction Report := do
  ExceptT.mk (prepareDirectory config.outputDir)
  ExceptT.mk (prepareDirectory config.indexDir)
  let (result, progress) ←
    ExceptT.lift (generateTraces apps config (writeTrace config) observations
      (shardSource config shard) (.ofTable apps))
  ExceptT.mk (pure result)
  ExceptT.mk (writeTable (config.indexPath shard) (IndexRow.fileOf progress.index.rows))
  return progress.report

/-- Generates one shard from its task file. -/
def generateShard (apps : AppTable) (config : Config) (shard : Nat) (task : Path) :
    FileAction (Except Error Report) :=
  ExceptT.run do
    let observations ← ExceptT.mk (readWith task Observation.readAll)
    ExceptT.mk (pure (apps.checkApps (observations.map (·.app))))
    writeShard apps config shard observations

/-! ## All shards -/

/-- Reads the application table of a configuration. -/
def readApps (config : Config) : FileAction (Except Error AppTable) :=
  readWith config.apps fun contents => (AppTable.ofBytes contents).mapError Error.csv

/-- Generates shards one after the other, numbered from `shard`, and gives their messages. -/
def shardMessages (apps : AppTable) (config : Config) :
    Nat → List Path → FileAction (List (Pool.Message Report))
  | _, [] => return []
  | shard, task :: tasks => do
    let answer ← generateShard apps config shard task
    let messages ← shardMessages apps config (shard + 1) tasks
    return ⟨shard, answer⟩ :: messages

/-- Why the shards of a configuration were not all generated. -/
inductive RunFailure where
  /-- The run did not get as far as the shards. -/
  | setup (cause : Error)
  /-- A shard has no report. -/
  | shard (failure : Pool.Failure)
deriving DecidableEq, Repr

/-- The failure of the whole run. -/
def RunFailure.error : RunFailure → Error
  | .setup cause => cause
  | .shard failure => failure.error

/-- Generates all shards of a configuration. -/
def generateShards (config : Config) : FileAction (Except RunFailure (List Report)) := do
  match ← readApps config with
  | .error e => return .error (.setup e)
  | .ok apps =>
    let messages ← shardMessages apps config 0 config.tasks
    return (Pool.collect config.tasks.length messages).mapError RunFailure.shard

/-! ## Merging -/

/-- Reads index files, up to the first that cannot be read. -/
def readIndices : List Path → FileAction (Except Error (List (List IndexRow)))
  | [] => return .ok []
  | p :: ps => do
    match ← readWith p fun contents => (IndexRow.readAll contents).mapError Error.csv with
    | .error e => return .error e
    | .ok rows =>
      match ← readIndices ps with
      | .error e => return .error e
      | .ok shards => return .ok (rows :: shards)

/-- Merges the index files of all shards into one and gives the number of its rows. -/
def mergeIndexFiles (inputs : List Path) (output : Path) : FileAction (Except Error Nat) := do
  match ← readIndices inputs with
  | .error e => return .error e
  | .ok shards =>
    let merged := IndexRow.merge shards
    match ← writeTable output (IndexRow.fileOf merged) with
    | .error e => return .error e
    | .ok () => return .ok merged.length

end WorkloadSynth
