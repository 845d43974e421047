import WorkloadSynth.Config.Basic
import WorkloadSynth.FileSystem.Action
import WorkloadSynth.Yaml.Document

/-!
# Configuration files

A configuration file gives the fields of a configuration by name.  The task files, the application
table and the output directory have to be given.  Relative paths are meant relative to the
directory of the file, and the index directory is next to the results unless it is given.
-/

namespace WorkloadSynth

open Yaml (Node)

namespace Config

/-! ## Fields -/

/-- The value of an optional field: `standard` where it is absent. -/
def fieldOr {α : Type} (standard : α) (read : Node → Option α) : Option Node → Option α
  | none => some standard
  | some node => read node

/-- A mode by its name. -/
def modeNamed : String → Option TraceMode
  | "daily" => some .daily
  | "continuous" => some .continuous
  | _ => none

/-- A mode: its name, or a mapping from its name to nothing. -/
def readMode : Node → Option TraceMode
  | .scalar _ text => modeNamed text
  | .mapping [(.scalar _ text, value)] => if value.isNull then modeNamed text else none
  | _ => none

/-- The resources of every row; both have to be given. -/
def readProvisioning (node : Node) : Option Provisioning := do
  match ← node.fields? ["cpu", "memory"] with
  | [some cpu, some memory] => return ⟨← cpu.word?, ← memory.word?⟩
  | _ => none

/-- A path. -/
def readPath (node : Node) : Option Path := node.text?.map Path.mk

/-- A path, or nothing. -/
def readOptionalPath (node : Node) : Option (Option Path) :=
  if node.isNull then some none else (readPath node).map some

/-- A list of paths. -/
def readPaths : Node → Option (List Path)
  | .sequence items => items.mapM readPath
  | _ => none

/-- The names of all fields, in order. -/
def fieldNames : List String :=
  ["mode", "days", "provisioning", "random_seed", "workers", "tasks", "apps", "output_dir",
    "index_dir"]

/-! ## Documents -/

/-- Where the index files go unless that is given: next to the output directory. -/
def besides (outputDir : Path) : Path :=
  match outputDir.parent? with
  | some parent => if parent.text.isEmpty then ⟨"."⟩ else parent
  | none => ⟨"."⟩

/-- A configuration from a document; `resolve` says what the paths in it are relative to. -/
def ofDocument (resolve : Path → Path) (node : Node) : Option Config := do
  match ← node.fields? fieldNames with
  | [mode, days, provisioning, randomSeed, workers, some tasks, some apps, some outputDir,
      indexDir] =>
    let workers ← fieldOr 0 Node.word? workers
    let outputDir := resolve (← readPath outputDir)
    let indexDir ← fieldOr none readOptionalPath indexDir
    return {
      mode := ← fieldOr .continuous readMode mode
      days := (← fieldOr 7 Node.word? days).toNat
      provisioning := ← fieldOr .standard readProvisioning provisioning
      randomSeed := ← fieldOr 1 Node.word? randomSeed
      workers := if workers = 0 then none else some workers.toNat
      tasks := (← readPaths tasks).map resolve
      apps := resolve (← readPath apps)
      outputDir
      indexDir := (indexDir.map resolve).getD (besides outputDir) }
  | _ => none

/-- What a path in a configuration file is relative to. -/
def resolveFrom (file p : Path) : Path :=
  match file.parent? with
  | some base => base.join p
  | none => p

/-- A configuration from the contents of a file. -/
def ofBytes (file : Path) (contents : Bytes) : Except Error Config := do
  match ((Utf8.decode contents).bind Yaml.parse).bind (ofDocument (resolveFrom file)) with
  | none => throw .yaml
  | some config =>
    if config.days = 0 then throw (.invalidConfig "days must be positive") else return config

/-- Loads a configuration file.  A directory can be opened but holds no document. -/
def load (file : Path) : FileAction (Except Error Config) := do
  match ← FileAction.readFile file with
  | .error .isADirectory => return .error .yaml
  | .error e => return .error (.file e)
  | .ok contents => return ofBytes file contents

end Config

end WorkloadSynth
