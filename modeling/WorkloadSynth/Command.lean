import WorkloadSynth.Config.File
import WorkloadSynth.Request
import WorkloadSynth.Shard

/-!
# Commands

Three commands: generate the traces of a configuration, merge audit indices, and summarize a trace.
A request becomes a file action whose value is what is printed and the exit code.
-/

namespace WorkloadSynth

/-- What a command leaves behind, apart from files. -/
structure Response where
  exitCode : Nat
  standardOutput : String
  standardError : String
deriving DecidableEq, Repr

/-! ## Output -/

/-- Lines of output. -/
def printLines (ls : List String) : String := String.join (ls.map (· ++ "\n"))

namespace Response

/-- A command that did its work. -/
def success (ls : List String) : Response := ⟨0, printLines ls, ""⟩

/-- A command that failed; `notes` stand before the failure. -/
def failure (notes : List String) (e : Error) : Response :=
  ⟨1, "", printLines (notes ++ ["error: " ++ e.message])⟩

/-- The answer to a command line that asks for nothing known. -/
def usage : Response := ⟨2, "", printLines Topic.program.page.lines⟩

end Response

/-- The line about one shard. -/
def shardLine (shard : Nat) (r : Report) : String :=
  "shard " ++ toString shard ++ ": " ++ toString r.functions ++ " units, " ++ toString r.written ++
    " written, " ++ toString r.fitFailures ++ " fit fallbacks, " ++ toString r.missingDays ++
    " missing days"

/-- The line about all shards. -/
def totalLine (config : Config) (r : Report) : String :=
  "total: " ++ toString r.written ++ " traces written to " ++ config.outputDir.text ++ ", " ++
    toString r.skipped ++ " skipped"

/-- What is noted about a failed run before its failure. -/
def RunFailure.notes : RunFailure → List String
  | .shard (.failed unit cause) => ["unit " ++ toString unit ++ " failed: " ++ cause.message]
  | _ => []

/-! ## Summaries of traces -/

namespace Trace

/-- The rows with invocations. -/
def active (trace : Trace) : Trace := trace.filter fun s => s.invocations ≠ 0

/-- The sum of whole numbers over the rows of a trace. -/
def sum (f : Sample → UInt64) (trace : Trace) : Nat := trace.foldl (fun n s => n + (f s).toNat) 0

/-- The larger of two numbers; a NaN does not count, and the second of two equal ones is taken. -/
def larger (x y : Float) : Float := if y.isNaN || y < x then x else y

/-- The largest memory of any row, at least zero. -/
def maxMemory (trace : Trace) : Float := trace.foldl (fun m s => larger m s.memUsed) 0.0

/-- The lines that summarize a trace. -/
def summary (trace : Trace) : List String :=
  let active := trace.active
  ["rows: " ++ toString trace.length,
    "invocations: " ++ toString (trace.sum (·.invocations)) ++ " in " ++ toString active.length ++
      " active minutes"] ++
  (match trace.getLast? with
    | some last => ["covers: " ++ toString last.time.toNat ++ " ms"]
    | none => []) ++
  (if active.isEmpty then []
    else
      let mean := Float.ofNat (active.sum (·.exec)) / Float.ofNat active.length
      ["mean exec time of active minutes: " ++ Double.fixedTo 2 mean ++ " ms"]) ++
  ["max memory: " ++ plainNumber trace.maxMemory ++ " MB",
    match simulationEnd trace with
    | some e => "last invocation ends at " ++ Double.fixedTo 3 e ++ " s"
    | none => "no invocations"]

end Trace

/-! ## Commands -/

/-- Generates all shards of a configuration file. -/
def runGenerate (file : Path) : FileAction Response := do
  match ← Config.load file with
  | .error e => return .failure [] e
  | .ok config =>
    match ← generateShards config with
    | .error e => return .failure e.notes e.error
    | .ok reports =>
      let lines := reports.zipIdx.map fun (r, shard) => shardLine shard r
      return .success (lines ++ [totalLine config (.total reports)])

/-- Merges index files. -/
def runMerge (inputs : List Path) (output : Path) : FileAction Response := do
  match ← mergeIndexFiles inputs output with
  | .error e => return .failure [] e
  | .ok rows =>
    return .success ["merged " ++ toString rows ++ " applications into " ++ output.text]

/-- Summarizes a trace file. -/
def runInspect (file : Path) : FileAction Response := do
  match ← readWith file Trace.ofBytes with
  | .error e => return .failure [] e
  | .ok trace => return .success trace.summary

/-- Does what a command asks for. -/
def Command.run : Command → FileAction Response
  | .generate config => runGenerate config
  | .mergeIndices inputs output => runMerge inputs output
  | .inspect trace => runInspect trace

/-- Does what a request asks for. -/
def Request.run : Request → FileAction Response
  | .perform command => command.run
  | .help topic => return .success topic.page.lines
  | .version => return .success [Topic.version]

/-- Does what a command line asks for. -/
def respond (arguments : List String) : FileAction Response :=
  match Request.ofArguments arguments with
  | some request => request.run
  | none => return .usage

end WorkloadSynth
