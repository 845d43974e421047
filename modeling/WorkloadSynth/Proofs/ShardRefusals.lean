import Mathlib
import WorkloadSynth.Proofs.AppTable
import WorkloadSynth.Proofs.Fates
import WorkloadSynth.Proofs.Rows
import WorkloadSynth.Proofs.ShardCourse

/-!
# Shards that are refused

A shard looks at its whole task before it touches a file.  It is refused for a task that cannot be
read, for the first faulty row, and for the first row of an unknown application
(`ShardRefusal`), and then it does nothing (`shardBody_eq_done_iff`).  Behind these checks only the
file system can fail, and a run over the units that fails is the end of the shard: the index is not
written any more.
-/

namespace WorkloadSynth

/-! ## §1 — checked applications -/

namespace AppTable

variable {apps : AppTable} {observations : List Observation}

theorem checkApps_map_eq_ok_iff :
    apps.checkApps (observations.map (·.app)) = .ok () ↔
      ∀ o ∈ observations, apps.Knows o.app := by
  rw [checkApps_eq_ok_iff, List.forall_mem_map]

/-- The check fails at the first unknown application. -/
theorem checkApps_map_eq_error_iff {e : Error} :
    apps.checkApps (observations.map (·.app)) = .error e ↔
      ∃ before o after, observations = before ++ o :: after ∧
        (∀ o' ∈ before, apps.Knows o'.app) ∧ ¬ apps.Knows o.app ∧ e = .missingLookup o.app := by
  rw [checkApps_eq_error_iff]
  constructor
  · rintro ⟨before', app, after', hsplit, hbefore, happ⟩
    obtain ⟨before, rest, rfl, rfl, hrest⟩ := List.map_eq_append_iff.mp hsplit
    obtain ⟨o, after, rfl, rfl, rfl⟩ := List.map_eq_cons_iff.mp hrest
    obtain ⟨he, hk⟩ := functionCount_eq_error_iff.mp happ
    exact ⟨before, o, after, rfl, List.forall_mem_map.mp hbefore, hk, he⟩
  · rintro ⟨before, o, after, rfl, hbefore, hk, he⟩
    refine ⟨before.map (·.app), o.app, after.map (·.app), ?_, List.forall_mem_map.mpr hbefore,
      functionCount_eq_error_iff.mpr ⟨he, hk⟩⟩
    rw [List.map_append, List.map_cons]

end AppTable

/-! ## §2 — refusals -/

/-- Why a shard is refused, given what came of reading its task. -/
inductive ShardRefusal (apps : AppTable) (task : Except FileError Bytes) : Error → Prop where
  /-- The task cannot be read. -/
  | unread {e : FileError} (h : task = .error e) : ShardRefusal apps task (.csv (.file e))
  /-- There is a faulty row, or the header is one. -/
  | faulty {contents : Bytes} {e : Error} (h : task = .ok contents)
      (hfaulty : Observation.Faulty contents e) : ShardRefusal apps task e
  /-- All rows can be read, and this is the first whose application has no number of functions. -/
  | unknown {contents : Bytes} {before after : List Observation} {o : Observation}
      (h : task = .ok contents)
      (hread : Observation.readAll contents = .ok (before ++ o :: after))
      (hbefore : ∀ o' ∈ before, apps.Knows o'.app) (ho : ¬ apps.Knows o.app) :
      ShardRefusal apps task (.missingLookup o.app)

section Body

variable {apps : AppTable} {config : Config} {shard : Nat}

theorem planShard_of_knows {contents : Bytes} {observations : List Observation}
    (hread : Observation.readAll contents = .ok observations)
    (hknows : ∀ o ∈ observations, apps.Knows o.app) (config : Config) (seed : UInt64) :
    planShard apps config seed contents = .ok (planTraces apps config seed observations) := by
  simp only [planShard, hread, AppTable.checkApps_map_eq_ok_iff.mpr hknows]

theorem planShard_eq_error_iff (config : Config) (seed : UInt64) {contents : Bytes} {e : Error} :
    planShard apps config seed contents = .error e ↔ ShardRefusal apps (.ok contents) e := by
  cases hread : Observation.readAll contents with
  | error e' =>
    have hfaulty := Observation.readAll_eq_error_iff.mp hread
    simp only [planShard, hread]
    constructor
    · intro h
      rw [← Except.error.inj h]
      exact .faulty rfl hfaulty
    · intro h
      cases h with
      | unread h => cases h
      | faulty h hfaulty' =>
        obtain rfl := Except.ok.inj h
        rw [Observation.readAll_eq_error_iff.mpr hfaulty'] at hread
        rw [Except.error.inj hread]
      | unknown h hread' _ _ =>
        obtain rfl := Except.ok.inj h
        rw [hread] at hread'
        cases hread'
  | ok observations =>
    have hcheck : planShard apps config seed contents = .error e ↔
        apps.checkApps (observations.map (·.app)) = .error e := by
      simp only [planShard, hread]
      cases apps.checkApps (observations.map (·.app)) with
      | error e' => simp
      | ok u => exact ⟨nofun, nofun⟩
    rw [hcheck, AppTable.checkApps_map_eq_error_iff]
    constructor
    · rintro ⟨before, o, after, rfl, hbefore, ho, rfl⟩
      exact .unknown rfl hread hbefore ho
    · intro h
      cases h with
      | unread h => cases h
      | faulty h hfaulty =>
        obtain rfl := Except.ok.inj h
        rw [Observation.readAll_eq_error_iff.mpr hfaulty] at hread
        cases hread
      | @unknown _ before after o h hread' hbefore ho =>
        obtain rfl := Except.ok.inj h
        rw [hread] at hread'
        exact ⟨before, o, after, Except.ok.inj hread', hbefore, ho, rfl⟩

/-- **A shard that does nothing.** Behind its task it ends at once exactly if it is refused, and
with the reason of the refusal. -/
theorem shardBody_eq_done_iff {task : Except FileError Bytes} {e : Error} :
    shardBody apps config shard task = .done (.error e) ↔ ShardRefusal apps task e := by
  cases task with
  | error e' =>
    constructor
    · intro h
      rw [← Except.error.inj (FileAction.done.inj h)]
      exact .unread rfl
    · intro h
      cases h with
      | unread h =>
        obtain rfl := Except.error.inj h
        rfl
      | faulty h _ => cases h
      | unknown h _ _ _ => cases h
  | ok contents =>
    rw [← planShard_eq_error_iff config (shardSeed config shard)]
    unfold shardBody
    dsimp only
    cases planShard apps config (shardSeed config shard) contents with
    | error e' => simp
    | ok plan => exact ⟨nofun, nofun⟩

end Body

/-! ## §3 — failures behind the checks -/

/-- A failure of the file system, as a shard reports it. -/
def Error.IsFileFailure (e : Error) : Prop :=
  ∃ cause, e = .file cause ∨ e = .csv (.file cause)

theorem Error.IsFileFailure.ne_missingLookup {e : Error} (h : e.IsFileFailure) (app : String) :
    e ≠ .missingLookup app := by
  obtain ⟨cause, rfl | rfl⟩ := h
  · exact nofun
  · exact nofun

section Failures

variable {α : Type} {fs : FileSystem}

/-- Writing files fails for the file system, or what comes behind it fails. -/
theorem isFileFailure_of_run_writeAll {files : List (Path × Bytes)}
    {next : FileAction (Except Error α)}
    (hnext : ∀ fs e, (next.run fs).1 = .error e → e.IsFileFailure) {e : Error}
    (h : ((writeAll files next).run fs).1 = .error e) : e.IsFileFailure := by
  induction files generalizing fs with
  | nil => exact hnext fs e h
  | cons file files ih =>
    obtain ⟨p, contents⟩ := file
    rw [writeAll, FileAction.run_write] at h
    generalize FileAction.performWrite fs p contents = r at h
    obtain ⟨result, fs'⟩ := r
    cases result with
    | error cause => exact ⟨cause, .inr (Except.error.inj h).symm⟩
    | ok u => exact ih h

/-- Writing files, whether it gets through or not, changes nothing where none of their paths
leads. -/
theorem entry?_run_writeAll_of_ne {files : List (Path × Bytes)} {result : Except Error α}
    {location : Location} (h : ∀ file ∈ files, fs.locateTrimmed file.1 ≠ .ok location) :
    FileSystem.entry? ((writeAll files (.done result)).run fs).2 location =
      fs.entry? location := by
  induction files generalizing fs with
  | nil => rfl
  | cons file files ih =>
    obtain ⟨p, contents⟩ := file
    obtain ⟨hfirst, hrest⟩ := List.forall_mem_cons.mp h
    rw [writeAll, FileAction.run_write]
    unfold FileAction.performWrite
    cases hwrite : fs.write p contents with
    | error cause => rfl
    | ok fs' =>
      obtain ⟨other, hwritable, rfl⟩ := FileSystem.of_write_eq_ok hwrite
      have hdirs := hwritable.sameDirectories contents
      have hne : location ≠ other := by
        rintro rfl
        exact hfirst hwritable.located
      -- the paths lead to the same locations as before the write
      have htail : ∀ file ∈ files,
          (fs.insert other (.file contents)).locateTrimmed file.1 ≠ .ok location := by
        intro file hfile hlocated
        exact hrest file hfile (FileSystem.resolve_of_directoriesIn hdirs.back hlocated)
      refine (ih htail).trans ?_
      rw [FileSystem.entry?_insert hwritable.notDirectory, if_neg hne]

end Failures

section Checked

variable {apps : AppTable} {config : Config} {shard : Nat}

/-- Behind the checks only the file system can fail. -/
theorem isFileFailure_of_knows {observations : List Observation}
    (hknows : ∀ o ∈ observations, apps.Knows o.app) {fs : FileSystem} {e : Error}
    (h : ((directoriesThen (planTraces apps config (shardSeed config shard) observations) config
      shard).run fs).1 = .error e) : e.IsFileFailure := by
  have hplan : (planTraces apps config (shardSeed config shard) observations).result = .ok () :=
    generateTraces_ok_of_knows hknows
  generalize planTraces apps config (shardSeed config shard) observations = plan at h hplan
  rw [directoriesThen, FileAction.run_makeDirectories] at h
  generalize fs.makeDirectories config.outputDir = r at h
  obtain ⟨result, fs₁⟩ := r
  cases result with
  | error cause => exact ⟨cause, .inl (Except.error.inj h).symm⟩
  | ok u =>
    dsimp only at h
    rw [indexDirectoryThen, FileAction.run_makeDirectories] at h
    generalize fs₁.makeDirectories config.indexDir = r at h
    obtain ⟨result, fs₂⟩ := r
    cases result with
    | error cause => exact ⟨cause, .inl (Except.error.inj h).symm⟩
    | ok u =>
      dsimp only at h
      rw [carryOut_of_ok hplan] at h
      refine isFileFailure_of_run_writeAll ?_ h
      intro _ _ hdone
      cases hdone

/-- A checked shard carries out its plan. -/
theorem shardBody_of_knows {contents : Bytes} {observations : List Observation}
    (hread : Observation.readAll contents = .ok observations)
    (hknows : ∀ o ∈ observations, apps.Knows o.app) :
    shardBody apps config shard (.ok contents) =
      directoriesThen (planTraces apps config (shardSeed config shard) observations) config
        shard := by
  simp only [shardBody, planShard_of_knows hread hknows config (shardSeed config shard)]

theorem run_generateShard_of_knows {task : Path} {contents : Bytes}
    {observations : List Observation} {fs : FileSystem} (htask : fs.read task = .ok contents)
    (hread : Observation.readAll contents = .ok observations)
    (hknows : ∀ o ∈ observations, apps.Knows o.app) :
    (generateShard apps config shard task).run fs =
      (directoriesThen (planTraces apps config (shardSeed config shard) observations) config
        shard).run fs := by
  rw [generateShard_eq, FileAction.run_read, htask, shardBody_of_knows hread hknows]

/-- A run over the units is the last but one thing that a checked shard does: if it fails, the shard
ends where it ended. -/
theorem run_generateShard_of_failure {task : Path} {contents : Bytes}
    {observations : List Observation} {fs fs₁ fs₂ fs₃ : FileSystem} {e : Error} {p : Progress Pcg}
    (htask : fs.read task = .ok contents)
    (hread : Observation.readAll contents = .ok observations)
    (hknows : ∀ o ∈ observations, apps.Knows o.app)
    (houtput : fs.makeDirectories config.outputDir = (.ok (), fs₁))
    (hindex : fs₁.makeDirectories config.indexDir = (.ok (), fs₂))
    (hrun : (generateTraces apps config (writeTrace config) observations
      (shardSource config shard) (.ofTable apps)).run fs₂ = ((.error e, p), fs₃)) :
    (generateShard apps config shard task).run fs = (.error e, fs₃) := by
  rw [run_generateShard_of_knows htask hread hknows, directoriesThen,
    FileAction.run_makeDirectories, houtput]
  dsimp only
  rw [indexDirectoryThen, FileAction.run_makeDirectories, hindex]
  dsimp only
  rw [← carryOut_planTraces, FileAction.run_andThen, hrun]
  rfl

/-- A run over the units that fails leaves everything alone but the places of its traces. -/
theorem entry?_of_failure {observations : List Observation} {fs₂ fs₃ : FileSystem} {e : Error}
    {p : Progress Pcg}
    (hrun : (generateTraces apps config (writeTrace config) observations
      (shardSource config shard) (.ofTable apps)).run fs₂ = ((.error e, p), fs₃))
    {location : Location}
    (h : ∀ t ∈ (planTraces apps config (shardSeed config shard) observations).traces,
      fs₂.locateTrimmed (config.tracePath t.name) ≠ .ok location) :
    fs₃.entry? location = fs₂.entry? location := by
  have hwrites := generateUnits_writeTrace apps config (fun end' => FileAction.done end'.1)
    (fun _ _ => rfl) (config.units observations)
    (.initial (shardSource config shard) (.ofTable apps)) []
  have hend : fs₃ = (FileAction.run ((generateTraces apps config (writeTrace config) observations
      (shardSource config shard) (.ofTable apps)).andThen fun end' => .done end'.1) fs₂).2 := by
    rw [FileAction.run_andThen, hrun]
    rfl
  rw [hend]
  refine (congrArg (fun action => FileSystem.entry? (FileAction.run action fs₂).2 location)
    hwrites).trans ?_
  apply entry?_run_writeAll_of_ne
  intro file hfile
  rw [planTraces_traces] at h
  obtain ⟨a, ha, rfl⟩ := List.mem_map.mp hfile
  exact h a.2 (List.mem_map_of_mem ha)

/-- **A shard leaves no trace unless it passes its checks.** If its task cannot be read, if a row is
faulty, or if an application is unknown, the shard ends with that error and the file system is as it
was.  Otherwise it never reports an unknown application, and if the run over its units fails, the
shard ends where that run ended: nothing is written behind it, and the places of its traces are the
only ones that it can have changed. -/
theorem generateShard_refusals (apps : AppTable) (config : Config) (shard : Nat) (task : Path)
    (fs : FileSystem) :
    (∀ e, ShardRefusal apps (fs.read task) e →
      (generateShard apps config shard task).run fs = (.error e, fs)) ∧
    ∀ contents observations, fs.read task = .ok contents →
      Observation.readAll contents = .ok observations →
      (∀ o ∈ observations, apps.Knows o.app) →
      (∀ app, ((generateShard apps config shard task).run fs).1 ≠ .error (.missingLookup app)) ∧
      ∀ fs₁ fs₂ fs₃ e p, fs.makeDirectories config.outputDir = (.ok (), fs₁) →
        fs₁.makeDirectories config.indexDir = (.ok (), fs₂) →
        (generateTraces apps config (writeTrace config) observations (shardSource config shard)
          (.ofTable apps)).run fs₂ = ((.error e, p), fs₃) →
        (generateShard apps config shard task).run fs = (.error e, fs₃) ∧
        ∀ location,
          (∀ t ∈ (planTraces apps config (shardSeed config shard) observations).traces,
            fs₂.locateTrimmed (config.tracePath t.name) ≠ .ok location) →
          fs₃.entry? location = fs₂.entry? location := by
  refine ⟨?_, ?_⟩
  · intro e hrefusal
    rw [generateShard_eq, FileAction.run_read, shardBody_eq_done_iff.mpr hrefusal]
    rfl
  · intro contents observations htask hread hknows
    refine ⟨?_, ?_⟩
    · intro app hmissing
      rw [run_generateShard_of_knows htask hread hknows] at hmissing
      exact (isFileFailure_of_knows hknows hmissing).ne_missingLookup app rfl
    · intro fs₁ fs₂ fs₃ e p houtput hindex hrun
      exact ⟨run_generateShard_of_failure htask hread hknows houtput hindex hrun,
        fun location h => entry?_of_failure hrun h⟩

end Checked

/-- A file system with nothing but a task. -/
def taskFiles (contents : Bytes) : FileSystem := ⟨[(["task.csv"], .file contents)], []⟩

theorem read_taskFiles (contents : Bytes) :
    (taskFiles contents).read ⟨"task.csv"⟩ = .ok contents := by
  rw [FileSystem.read_eq_ok_iff]
  exact ⟨["task.csv"], rfl, rfl⟩

/-- The files for a task whose second row belongs to another application than its first. -/
def strangerFiles : FileSystem := taskFiles (Observation.plainTask [("a", "f"), ("b", "g")])

/-- Two rows of one application. -/
def blockedRows : List (String × String) := [("a", "f"), ("a", "g")]

/-- The files for a task with these rows, and a directory where the second trace should go. -/
def blockedFiles : FileSystem where
  entries :=
    [(["converted"], .directory), (["converted", "g.csv"], .directory),
      (["task.csv"], .file (Observation.plainTask blockedRows))]
  workingDirectory := []

/-- The run over the units of that task. -/
def blockedRun : (Except Error Unit × Progress Pcg) × FileSystem :=
  (generateTraces idleTable oneDayConfig (writeTrace oneDayConfig)
    (Observation.plainObservations blockedRows) (shardSource oneDayConfig 3)
    (.ofTable idleTable)).run blockedFiles

/-- An application that is not in the table is refused before anything is done about the other one.
A trace that finds no place ends its shard: the trace before it stays, and there is no index. -/
theorem generateShard_refusals_two :
    (ShardRefusal idleTable (strangerFiles.read ⟨"task.csv"⟩) (.missingLookup "b") ∧
      (generateShard idleTable oneDayConfig 3 ⟨"task.csv"⟩).run strangerFiles =
        (.error (.missingLookup "b"), strangerFiles)) ∧
    blockedRun.1.1 = .error (.csv (.file .isADirectory)) ∧
    (generateShard idleTable oneDayConfig 3 ⟨"task.csv"⟩).run blockedFiles =
      (.error (.csv (.file .isADirectory)), blockedRun.2) ∧
    FileSystem.entry? blockedRun.2 ["converted", "f.csv"] ≠ none ∧
    FileSystem.entry? blockedRun.2 ["indices3.csv"] = none := by
  constructor
  · have htask : strangerFiles.read ⟨"task.csv"⟩ =
        .ok (Observation.plainTask [("a", "f"), ("b", "g")]) := read_taskFiles _
    have hunknown : ¬ idleTable.Knows "b" := by
      rintro ⟨record, hget, -⟩
      cases hget
    have hrefusal : ShardRefusal idleTable (strangerFiles.read ⟨"task.csv"⟩)
        (.missingLookup "b") := by
      have hrows : Observation.readAll (Observation.plainTask [("a", "f"), ("b", "g")]) =
          .ok ([plainObservation "a" "f" 0 1 "f"] ++ plainObservation "b" "g" 0 1 "g" :: []) :=
        Observation.readAll_plainTask _
      rw [htask]
      refine .unknown rfl hrows ?_ hunknown
      intro o ho
      rw [List.mem_singleton.mp ho]
      exact idleTable_knows
    exact ⟨hrefusal, (generateShard_refusals idleTable oneDayConfig 3 ⟨"task.csv"⟩
      strangerFiles).1 _ hrefusal⟩
  · have htask : blockedFiles.read ⟨"task.csv"⟩ = .ok (Observation.plainTask blockedRows) :=
      FileSystem.read_eq_ok_iff.mpr ⟨["task.csv"], rfl, rfl⟩
    have hknows : ∀ o ∈ Observation.plainObservations blockedRows, idleTable.Knows o.app := by
      intro o ho
      rcases List.mem_pair.mp ho with rfl | rfl <;> exact idleTable_knows
    have hnames : (planTraces idleTable oneDayConfig (shardSeed oneDayConfig 3)
        (Observation.plainObservations blockedRows)).traces.map (·.name) = ["f", "g"] := by
      decide +kernel
    obtain ⟨hresult, hfirst⟩ : blockedRun.1.1 = .error (.csv (.file .isADirectory)) ∧
        FileSystem.entry? blockedRun.2 ["converted", "f.csv"] ≠ none := by
      decide +kernel
    have hparts : ∀ r : (Except Error Unit × Progress Pcg) × FileSystem,
        r = ((r.1.1, r.1.2), r.2) := fun _ => rfl
    have hrun := hparts blockedRun
    rw [hresult] at hrun
    obtain ⟨-, hfailure⟩ := (generateShard_refusals idleTable oneDayConfig 3 ⟨"task.csv"⟩
      blockedFiles).2 _ _ htask (Observation.readAll_plainTask blockedRows) hknows
    obtain ⟨halone, hkept⟩ := hfailure blockedFiles blockedFiles blockedRun.2
      (.csv (.file .isADirectory)) blockedRun.1.2 rfl rfl hrun
    refine ⟨hresult, halone, hfirst, (hkept ["indices3.csv"] ?_).trans rfl⟩
    -- the index would go where no trace goes
    intro t ht
    have hname : t.name ∈ ["f", "g"] := hnames ▸ List.mem_map_of_mem ht
    rcases List.mem_pair.mp hname with h | h
    · rw [h]
      decide
    · rw [h]
      decide

end WorkloadSynth
