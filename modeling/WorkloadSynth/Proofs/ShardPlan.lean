import Mathlib
import WorkloadSynth.Proofs.Files
import WorkloadSynth.Proofs.Generate
import WorkloadSynth.Shard

/-!
# What a shard is going to do

Once its task has been read, everything about a shard is decided: its traces, its report and its
index are functions of the contents of the task, the table, the configuration and the seed
(`ShardPlan`).  As a file action a shard reads its task, makes two directories, and writes the files
of its plan one after the other (`generateShard_eq`).
-/

namespace WorkloadSynth

/-! ## §1 — writing many files -/

namespace FileAction

variable {α β : Type}

theorem andThen_assoc {γ : Type} (a : FileAction α) (f : α → FileAction β)
    (g : β → FileAction γ) :
    (a.andThen f).andThen g = a.andThen fun value => (f value).andThen g := by
  induction a with
  | done value => rfl
  | read p next ih => exact congrArg (FileAction.read p) (funext ih)
  | write p contents next ih => exact congrArg (FileAction.write p contents) (funext ih)
  | makeDirectories p next ih => exact congrArg (FileAction.makeDirectories p) (funext ih)

theorem run_andThen (a : FileAction α) (f : α → FileAction β) (fs : FileSystem) :
    (a.andThen f).run fs = (f (a.run fs).1).run (a.run fs).2 := by
  induction a generalizing fs with
  | done value => rfl
  | read p next ih => exact ih _ fs
  | write p contents next ih => exact ih _ _
  | makeDirectories p next ih => exact ih _ _

/-- The value of an action and the files behind it. -/
theorem exists_run_eq {a : FileAction α} {fs : FileSystem} {value : α} (h : (a.run fs).1 = value) :
    ∃ fs', a.run fs = (value, fs') :=
  ⟨(a.run fs).2, Prod.ext h rfl⟩

end FileAction

/-- Writes files in order, up to the first that fails, and then goes on. -/
def writeAll {α : Type} (writes : List (Path × Bytes)) (next : FileAction (Except Error α)) :
    FileAction (Except Error α) :=
  match writes with
  | [] => next
  | (p, contents) :: writes =>
    .write p contents fun r =>
      match r with
      | .error e => .done (.error (.csv (.file e)))
      | .ok () => writeAll writes next

theorem writeAll_append {α : Type} (writes more : List (Path × Bytes))
    (next : FileAction (Except Error α)) :
    writeAll (writes ++ more) next = writeAll writes (writeAll more next) := by
  induction writes with
  | nil => rfl
  | cons w writes ih => rw [List.cons_append, writeAll, writeAll, ih]

theorem writeTable_andThen {α : Type} (p : Path) (contents : Bytes)
    (next : Except Error Unit → FileAction (Except Error α))
    (hnext : ∀ e, next (.error e) = .done (.error e)) :
    (writeTable p contents).andThen next = writeAll [(p, contents)] (next (.ok ())) := by
  refine congrArg (FileAction.write p contents) (funext ?_)
  intro r
  cases r with
  | error e => exact hnext _
  | ok u => rfl

/-! ## §2 — the traces of a shard -/

/-- The file of a trace. -/
def traceFile (config : Config) (t : GeneratedTrace) : Path × Bytes :=
  (config.tracePath t.name, Trace.toBytes t.trace)

section Traces

variable {σ : Type} [RandomSource σ] {α : Type} (apps : AppTable) (config : Config)

/-- **A run that writes its traces.** It does what a run does whose sink takes every trace, with
the traces written in between, and goes on with the result of that run. -/
theorem generateUnits_writeTrace
    (next : Except Error Unit × Progress σ → FileAction (Except Error α))
    (hnext : ∀ e p, next (.error e, p) = .done (.error e)) (units : List TraceUnit)
    (p : Progress σ) (log : List GeneratedTrace) :
    (generateUnits apps config (writeTrace config) units p).andThen next =
      writeAll ((handedOver apps config units p).map fun a => traceFile config a.2)
        (next (recordedRun apps config takeAll units p log).1) := by
  induction units generalizing p log with
  | nil => rfl
  | cons unit units ih =>
    unfold generateUnits handedOver
    cases hout : processUnit apps config unit p with
    | fail e p' =>
      rw [recordedRun_of_fail takeAll hout]
      rfl
    | skip p' =>
      rw [recordedRun_of_skip takeAll hout]
      exact ih p' log
    | emit t p' =>
      rw [recordedRun_of_emit takeAll hout]
      -- the trace is written before the run knows the answer; a failure ends it here
      refine congrArg (FileAction.write _ _) (funext ?_)
      intro r
      cases r with
      | error e => exact hnext _ _
      | ok u => exact ih (p'.listWritten t) (log ++ [t])

end Traces

/-! ## §3 — plans -/

/-- What a shard is going to do. -/
structure ShardPlan where
  traces : List GeneratedTrace
  /-- How the run over the units ends. -/
  result : Except Error Unit
  report : Report
  index : AuditIndex

/-- The plan for observations and a seed.  It is a run whose sink takes every trace. -/
def planTraces (apps : AppTable) (config : Config) (seed : UInt64)
    (observations : List Observation) : ShardPlan :=
  let run := (generateTraces apps config (recorder takeAll) observations (Pcg.ofSeed seed)
    (.ofTable apps)).run []
  { traces := run.2
    result := run.1.1
    report := run.1.2.report
    index := run.1.2.index }

/-- The plan for the contents of a task file. -/
def planShard (apps : AppTable) (config : Config) (seed : UInt64) (contents : Bytes) :
    Except Error ShardPlan :=
  match Observation.readAll contents with
  | .error e => .error e
  | .ok observations =>
    match apps.checkApps (observations.map (·.app)) with
    | .error e => .error e
    | .ok () => .ok (planTraces apps config seed observations)

/-- The seed of a shard. -/
def shardSeed (config : Config) (shard : Nat) : UInt64 := config.randomSeed + UInt64.ofNat shard

/-- The file of the index of a plan. -/
def ShardPlan.indexFile (plan : ShardPlan) (config : Config) (shard : Nat) : Path × Bytes :=
  (config.indexPath shard, IndexRow.fileOf plan.index.rows)

/-- The files that a plan writes: the traces, and the index behind them. -/
def ShardPlan.files (plan : ShardPlan) (config : Config) (shard : Nat) : List (Path × Bytes) :=
  plan.traces.map (traceFile config) ++ [plan.indexFile config shard]

/-! ## §4 — shards as actions -/

/-- Carries out a plan. -/
def carryOut (plan : ShardPlan) (config : Config) (shard : Nat) :
    FileAction (Except Error Report) :=
  writeAll (plan.traces.map (traceFile config))
    (match plan.result with
    | .error e => .done (.error e)
    | .ok () => writeAll [plan.indexFile config shard] (.done (.ok plan.report)))

/-- Makes the second directory and carries out a plan. -/
def indexDirectoryThen (plan : ShardPlan) (config : Config) (shard : Nat) :
    FileAction (Except Error Report) :=
  .makeDirectories config.indexDir fun r =>
    match r with
    | .error e => .done (.error (.file e))
    | .ok () => carryOut plan config shard

/-- Makes both directories and carries out a plan. -/
def directoriesThen (plan : ShardPlan) (config : Config) (shard : Nat) :
    FileAction (Except Error Report) :=
  .makeDirectories config.outputDir fun r =>
    match r with
    | .error e => .done (.error (.file e))
    | .ok () => indexDirectoryThen plan config shard

/-- What a shard does with its task. -/
def shardBody (apps : AppTable) (config : Config) (shard : Nat) (task : Except FileError Bytes) :
    FileAction (Except Error Report) :=
  match task with
  | .error e => .done (.error (.csv (.file e)))
  | .ok contents =>
    match planShard apps config (shardSeed config shard) contents with
    | .error e => .done (.error e)
    | .ok plan => directoriesThen plan config shard

section Actions

variable (apps : AppTable) (config : Config) (shard : Nat)

theorem planTraces_traces (seed : UInt64) (observations : List Observation) :
    (planTraces apps config seed observations).traces =
      (handedOver apps config (config.units observations)
        (.initial (Pcg.ofSeed seed) (.ofTable apps))).map (·.2) :=
  recordedRun_takeAll apps config _ _ []

/-- Goes on behind the traces of a shard: with the index, unless the run failed. -/
def indexThen (end' : Except Error Unit × Progress Pcg) : FileAction (Except Error Report) :=
  match end'.1 with
  | .error e => .done (.error e)
  | .ok () =>
    writeAll [(config.indexPath shard, IndexRow.fileOf end'.2.index.rows)]
      (.done (.ok end'.2.report))

theorem carryOut_planTraces (observations : List Observation) :
    (generateTraces apps config (writeTrace config) observations (shardSource config shard)
        (.ofTable apps)).andThen (indexThen config shard) =
      carryOut (planTraces apps config (shardSeed config shard) observations) config shard := by
  have hwrite := generateUnits_writeTrace apps config (indexThen config shard)
    (fun _ _ => rfl) (config.units observations)
    (.initial (shardSource config shard) (.ofTable apps)) []
  refine hwrite.trans ?_
  unfold carryOut
  rw [planTraces_traces, List.map_map]
  rfl

theorem writeShard_eq (observations : List Observation) :
    (writeShard apps config shard observations).run =
      directoriesThen (planTraces apps config (shardSeed config shard) observations) config
        shard := by
  refine congrArg (FileAction.makeDirectories config.outputDir) (funext ?_)
  intro r
  cases r with
  | error e => rfl
  | ok u =>
    refine congrArg (FileAction.makeDirectories config.indexDir) (funext ?_)
    intro r
    cases r with
    | error e => rfl
    | ok u =>
      refine Eq.trans ?_ (carryOut_planTraces apps config shard observations)
      -- the run is the first part of a longer action; its result decides how that goes on
      show ((generateTraces apps config (writeTrace config) observations
        (shardSource config shard) (.ofTable apps)).andThen _).andThen _ = _
      refine (FileAction.andThen_assoc _ _ _).trans ?_
      refine congrArg (FileAction.andThen _) (funext ?_)
      rintro ⟨result, progress⟩
      cases result with
      | error e => rfl
      | ok u => exact writeTable_andThen _ _ _ fun _ => rfl

/-- **A shard as an action.** -/
theorem generateShard_eq (task : Path) :
    generateShard apps config shard task = .read task (shardBody apps config shard) := by
  refine congrArg (FileAction.read task) (funext ?_)
  intro r
  cases r with
  | error e => rfl
  | ok contents =>
    show (FileAction.done (Observation.readAll contents)).andThen _ = _
    unfold shardBody planShard
    dsimp only
    generalize Observation.readAll contents = read
    cases read with
    | error e => rfl
    | ok observations =>
      dsimp only
      show (FileAction.done (apps.checkApps (observations.map (·.app)))).andThen
        (ExceptT.bindCont fun _ => writeShard apps config shard observations) = _
      generalize apps.checkApps (observations.map (·.app)) = checked
      cases checked with
      | error e => rfl
      | ok u => exact writeShard_eq apps config shard observations

end Actions

end WorkloadSynth
