import Mathlib
import WorkloadSynth.Proofs.Schedule
import WorkloadSynth.Proofs.ShardRefusals

/-!
# Schedules of shards

Shards share nothing but the two directories, which each of them makes before it writes, as long as
no shard writes where another one reads its task or writes.  Every schedule of a pool then leads to
the reports and the files of the shards one after the other (`generateShards_schedules`).
-/

namespace WorkloadSynth

/-! ## §1 — what is true on the way -/

section Way

variable (apps : AppTable) (config : Config) (fs : FileSystem) (units : Nat)
  (course : Nat → Course)

/-- The stages of a shard: the task, one directory, the other directory, and the files. -/
def shardScript : Pool.Script Report where
  residual shard stage :=
    match stage with
    | 0 => generateShard apps config shard (course shard).task
    | 1 => directoriesThen (course shard).plan config shard
    | 2 => indexDirectoryThen (course shard).plan config shard
    | written + 3 =>
      writeAll (((course shard).placed.drop written).map PlacedFile.file)
        (.done (.ok (course shard).plan.report))
  last shard := (course shard).placed.length + 3
  value shard := (course shard).plan.report

/-- No other shard writes at a location. -/
def Unclaimed (shard : Nat) (location : Location) : Prop :=
  ∀ other < units, other ≠ shard → ∀ w ∈ (course other).placed, w.location ≠ location

/-- What a shard that is alone has written at its stage. -/
def filesAt (shard stage : Nat) : FileSystem :=
  (bothMade config fs).placeAll ((course shard).placed.take (stage - 3))

/-- Wherever no other shard writes, there is what the shard has when it is alone. -/
def Agrees (stages : Nat → Nat) (files : FileSystem) : Prop :=
  ∀ shard < units, ∀ location, Unclaimed units course shard location →
    files.entry? location =
      FileSystem.entry? (filesAt config fs course shard (stages shard)) location

/-- **The invariant.** No shard has made a directory, or none has made the second one, or both are
there and the files agree. -/
inductive OnTheWay (stages : Nat → Nat) : FileSystem → Prop where
  | untouched (early : ∀ shard < units, stages shard ≤ 1) : OnTheWay stages fs
  | halfMade (early : ∀ shard < units, stages shard ≤ 2) (some : 0 < units) :
      OnTheWay stages (outputMade config fs)
  | writing {files : FileSystem} (dirs : (bothMade config fs).SameDirectories files)
      (agrees : Agrees config fs units course stages files) (some : 0 < units) :
      OnTheWay stages files

/-- The shards take their courses when they are alone, and no shard writes where another one reads
or writes. -/
structure Independent : Prop where
  courses : ∀ shard < units, (course shard).Of apps config fs shard
  sources : ∀ shard < units, Unclaimed units course shard (course shard).source
  places : ∀ shard < units, ∀ w ∈ (course shard).placed,
    Unclaimed units course shard w.location

end Way

section Steps

variable {apps : AppTable} {config : Config} {fs : FileSystem} {units : Nat}
  {course : Nat → Course} {stages : Nat → Nat} {files : FileSystem} {shard : Nat}

theorem update_le {bound : Nat} (h : ∀ other < units, stages other ≤ bound)
    (hstage : stages shard + 1 ≤ bound) :
    ∀ other < units, Function.update stages shard (stages shard + 1) other ≤ bound := by
  intro other hother
  by_cases heq : other = shard
  · rw [heq, Function.update_self]
    exact hstage
  · rw [Function.update_of_ne heq]
    exact h other hother

/-- Nothing has been written before the last stages. -/
theorem filesAt_of_early {stage : Nat} (h : stage ≤ 3) :
    filesAt config fs course shard stage = bothMade config fs := by
  unfold filesAt
  rw [Nat.sub_eq_zero_of_le h, List.take_zero]
  rfl

theorem Agrees.early (h : Agrees config fs units course stages files) (hstage : stages shard ≤ 2) :
    Agrees config fs units course (Function.update stages shard (stages shard + 1)) files := by
  intro other hother location hfree
  by_cases heq : other = shard
  · subst heq
    rw [h other hother location hfree, Function.update_self, filesAt_of_early (by omega),
      filesAt_of_early (by omega)]
  · rw [Function.update_of_ne heq]
    exact h other hother location hfree

/-- A shard that has not read its task yet finds it as it was. -/
theorem OnTheWay.read (h : Independent apps config fs units course)
    (hway : OnTheWay config fs units course stages files) (hshard : shard < units)
    (hstage : stages shard = 0) :
    files.read (course shard).task = .ok (course shard).contents ∧
      OnTheWay config fs units course (Function.update stages shard (stages shard + 1)) files := by
  have hcourse := h.courses shard hshard
  have hmade := (grows_outputMade config fs).trans (grows_bothMade config fs)
  rw [FileSystem.read_eq_ok_iff]
  cases hway with
  | untouched early =>
    refine ⟨⟨_, hcourse.located, hcourse.found⟩, .untouched (update_le early (by omega))⟩
  | halfMade early some =>
    have hgrows := grows_outputMade config fs
    refine ⟨⟨_, FileSystem.resolve_of_directoriesIn hgrows.directoriesIn hcourse.located,
      hgrows.entries _ _ hcourse.found⟩, .halfMade (update_le early (by omega)) some⟩
  | writing dirs agrees some =>
    have hdirs := hmade.directoriesIn.trans dirs.into
    refine ⟨⟨_, FileSystem.resolve_of_directoriesIn hdirs hcourse.located, ?_⟩,
      .writing dirs (agrees.early (by omega)) some⟩
    -- nobody else writes at the source, and this shard has not begun to
    rw [agrees shard hshard _ (h.sources shard hshard), filesAt_of_early (by omega)]
    exact hmade.entries _ _ hcourse.found

/-- The first directory is made, or found. -/
theorem OnTheWay.makeOutputDir (h : Independent apps config fs units course)
    (hway : OnTheWay config fs units course stages files) (hshard : shard < units)
    (hstage : stages shard = 1) :
    ∃ files', files.makeDirectories config.outputDir = (.ok (), files') ∧
      OnTheWay config fs units course (Function.update stages shard (stages shard + 1)) files' := by
  have hcourse := h.courses shard hshard
  have hmade := FileSystem.made_of_makeDirectories hcourse.outputDir
  cases hway with
  | untouched early =>
    refine ⟨outputMade config fs, hcourse.outputDir,
      .halfMade (update_le ?_ ?_) (Nat.zero_lt_of_lt hshard)⟩
    · intro other hother
      exact (early other hother).trans (by omega)
    · omega
  | halfMade early some =>
    exact ⟨_, FileSystem.makeDirectories_of_made hmade,
      .halfMade (update_le early (by omega)) some⟩
  | writing dirs agrees some =>
    have hdirs := (grows_bothMade config fs).directoriesIn.trans dirs.into
    exact ⟨_, FileSystem.makeDirectories_of_made (hmade.mono hdirs),
      .writing dirs (agrees.early (by omega)) some⟩

/-- The second directory is made, or found. -/
theorem OnTheWay.makeIndexDir (h : Independent apps config fs units course)
    (hway : OnTheWay config fs units course stages files) (hshard : shard < units)
    (hstage : stages shard = 2) :
    ∃ files', files.makeDirectories config.indexDir = (.ok (), files') ∧
      OnTheWay config fs units course (Function.update stages shard (stages shard + 1)) files' := by
  have hcourse := h.courses shard hshard
  have hmade := FileSystem.made_of_makeDirectories hcourse.indexDir
  cases hway with
  | untouched early =>
    have hearly := early shard hshard
    omega
  | halfMade early some =>
    refine ⟨bothMade config fs, hcourse.indexDir, .writing (.refl _) ?_ some⟩
    -- no file has been written yet
    have hlate : ∀ other < units,
        Function.update stages shard (stages shard + 1) other ≤ 3 := by
      refine update_le ?_ (by omega)
      intro other hother
      exact (early other hother).trans (by omega)
    intro other hother location hfree
    rw [filesAt_of_early (hlate other hother)]
  | writing dirs agrees some =>
    exact ⟨_, FileSystem.makeDirectories_of_made (hmade.mono dirs.into),
      .writing dirs (agrees.early (by omega)) some⟩

theorem filesAt_succ {written : Nat} {w : PlacedFile}
    (h : (course shard).placed[written]? = some w) :
    filesAt config fs course shard (written + 4) =
      (filesAt config fs course shard (written + 3)).place w := by
  unfold filesAt FileSystem.placeAll
  rw [Nat.add_sub_cancel, show written + 4 - 3 = written + 1 by omega, List.take_add_one, h,
    List.foldl_append]
  rfl

/-- The next file finds its place. -/
theorem OnTheWay.write (h : Independent apps config fs units course)
    (hway : OnTheWay config fs units course stages files) (hshard : shard < units) {written : Nat}
    (hstage : stages shard = written + 3) {w : PlacedFile}
    (hw : (course shard).placed[written]? = some w) :
    FileAction.performWrite files w.path w.contents = (.ok (), files.place w) ∧
      OnTheWay config fs units course (Function.update stages shard (stages shard + 1))
        (files.place w) := by
  have hmem := List.mem_of_getElem? hw
  have htakes := (h.courses shard hshard).takes
  cases hway with
  | untouched early =>
    have hearly := early shard hshard
    omega
  | halfMade early some =>
    have hearly := early shard hshard
    omega
  | writing dirs agrees some =>
    have hfiles := (htakes w hmem).mono dirs
    refine ⟨hfiles.performWrite, .writing (dirs.trans hfiles.sameDirectories) ?_ some⟩
    -- the written file is news for its own shard only
    intro other hother location hfree
    rw [hfiles.entry?_place]
    by_cases heq : other = shard
    · subst heq
      have halone : (filesAt config fs course other (written + 3)).Takes w := by
        refine (htakes w hmem).mono (FileSystem.sameDirectories_placeAll ?_)
        intro v hv
        exact htakes v (List.mem_of_mem_take hv)
      have hagrees := agrees other hother location hfree
      rw [hstage] at hagrees
      rw [Function.update_self, hstage, filesAt_succ hw, halone.entry?_place, hagrees]
    · -- what another shard has is somewhere else
      rw [Function.update_of_ne heq, if_neg (hfree shard hshard (Ne.symm heq) w hmem).symm]
      exact agrees other hother location hfree

/-- **Every shard goes on as if it were alone.** -/
theorem carries_shardScript (h : Independent apps config fs units course) :
    (shardScript apps config course).Carries units (OnTheWay config fs units course) := by
  refine ⟨?_, ?_⟩
  · intro shard _
    show writeAll (((course shard).placed.drop (course shard).placed.length).map _) _ = _
    rw [List.drop_length]
    rfl
  · intro shard hshard stages files hway hlast
    have hcourse := h.courses shard hshard
    match hstage : stages shard with
    | 0 =>
      obtain ⟨hread, hnext⟩ := hway.read h hshard hstage
      rw [hstage] at hnext
      refine ⟨files, ?_, hnext⟩
      show (generateShard apps config shard (course shard).task).step files = _
      rw [generateShard_eq, FileAction.step, hread]
      unfold shardBody
      dsimp only
      rw [hcourse.planned]
      rfl
    | 1 =>
      obtain ⟨files', hmake, hnext⟩ := hway.makeOutputDir h hshard hstage
      rw [hstage] at hnext
      refine ⟨files', ?_, hnext⟩
      show (directoriesThen (course shard).plan config shard).step files = _
      rw [directoriesThen, FileAction.step, hmake]
      rfl
    | 2 =>
      obtain ⟨files', hmake, hnext⟩ := hway.makeIndexDir h hshard hstage
      rw [hstage] at hnext
      refine ⟨files', ?_, hnext⟩
      show (indexDirectoryThen (course shard).plan config shard).step files = _
      rw [indexDirectoryThen, FileAction.step, hmake]
      dsimp only
      rw [carryOut_of_ok hcourse.succeeds, hcourse.files]
      rfl
    | written + 3 =>
      have hlt : written < (course shard).placed.length := by
        rw [hstage] at hlast
        exact Nat.lt_of_add_lt_add_right hlast
      have hw := List.getElem?_eq_getElem hlt
      obtain ⟨hperform, hnext⟩ := hway.write h hshard hstage hw
      rw [hstage] at hnext
      refine ⟨_, ?_, hnext⟩
      show (writeAll (((course shard).placed.drop written).map PlacedFile.file) _).step files = _
      rw [List.drop_eq_getElem_cons hlt, List.map_cons, PlacedFile.file, writeAll,
        FileAction.step, hperform]
      rfl

end Steps

/-! ## §3 — the end -/

section End

variable {apps : AppTable} {config : Config} {fs : FileSystem} {units : Nat}
  {course : Nat → Course} {stages : Nat → Nat} {files files' : FileSystem}

/-- The files when all shards are done. -/
structure Ended (config : Config) (fs : FileSystem) (units : Nat) (course : Nat → Course)
    (files : FileSystem) : Prop where
  untouched : units = 0 → files = fs
  dirs : 0 < units → (bothMade config fs).SameDirectories files
  agrees : ∀ shard < units, ∀ location, Unclaimed units course shard location →
    files.entry? location =
      FileSystem.entry? ((bothMade config fs).placeAll (course shard).placed) location

theorem OnTheWay.ended (hway : OnTheWay config fs units course stages files)
    (hlast : ∀ shard < units, stages shard = (course shard).placed.length + 3) :
    Ended config fs units course files := by
  cases hway with
  | untouched early =>
    have hnone : units = 0 := by
      by_contra hsome
      have hzero : 0 < units := Nat.pos_of_ne_zero hsome
      have hearly := early 0 hzero
      have hlate := hlast 0 hzero
      omega
    subst hnone
    exact ⟨fun _ => rfl, fun h => absurd h (Nat.lt_irrefl 0),
      fun shard h => absurd h (Nat.not_lt_zero shard)⟩
  | halfMade early some =>
    have hearly := early 0 some
    have hlate := hlast 0 some
    omega
  | writing dirs agrees some =>
    refine ⟨fun h => absurd some (by omega), fun _ => dirs, ?_⟩
    intro shard hshard location hfree
    rw [agrees shard hshard location hfree, hlast shard hshard]
    unfold filesAt
    rw [Nat.add_sub_cancel, List.take_length]

/-- There is only one end. -/
theorem Ended.sameAs (h : Independent apps config fs units course)
    (hfiles : Ended config fs units course files) (hfiles' : Ended config fs units course files') :
    files.SameAs files' := by
  rcases Nat.eq_zero_or_pos units with hnone | hsome
  · rw [hfiles.untouched hnone, hfiles'.untouched hnone]
    exact ⟨fun _ => rfl, rfl⟩
  refine ⟨?_, ?_⟩
  · intro location
    by_cases hclaimed : ∃ shard < units, ∃ w ∈ (course shard).placed, w.location = location
    · obtain ⟨shard, hshard, w, hw, rfl⟩ := hclaimed
      have hfree := h.places shard hshard w hw
      exact (hfiles.agrees shard hshard _ hfree).trans
        (hfiles'.agrees shard hshard _ hfree).symm
    -- nobody writes here, so the first shard can stand for all
    · have hfree : Unclaimed units course 0 location := by
        intro other hother _ w hw heq
        exact hclaimed ⟨other, hother, w, hw, heq⟩
      exact (hfiles.agrees 0 hsome _ hfree).trans (hfiles'.agrees 0 hsome _ hfree).symm
  · exact (hfiles.dirs hsome).into.workingDirectory.symm.trans
      (hfiles'.dirs hsome).into.workingDirectory

/-- A file system in which the files of a plan can be read, each of them unless a later one has
taken its place. -/
def ShardPlan.CarriedOut (plan : ShardPlan) (config : Config) (shard : Nat)
    (files : FileSystem) : Prop :=
  ∀ before p contents after, plan.files config shard = before ++ (p, contents) :: after →
    (∀ file ∈ after, files.locateTrimmed file.1 ≠ files.locateTrimmed p) →
      files.read p = .ok contents

theorem Ended.carriedOut (h : Independent apps config fs units course)
    (hfiles : Ended config fs units course files) {shard : Nat} (hshard : shard < units) :
    (course shard).plan.CarriedOut config shard files := by
  intro before p contents after hsplit hlast
  have hcourse := h.courses shard hshard
  rw [hcourse.files] at hsplit
  obtain ⟨placedBefore, rest, hplaced, rfl, hrest⟩ := List.map_eq_append_iff.mp hsplit
  obtain ⟨w, placedAfter, rfl, hw, rfl⟩ := List.map_eq_cons_iff.mp hrest
  obtain ⟨rfl, rfl⟩ := Prod.mk.inj hw
  have htakes := hcourse.takes
  have hmem : w ∈ (course shard).placed := by
    rw [hplaced]
    exact List.mem_append_right _ List.mem_cons_self
  have hfinal : ∀ v ∈ (course shard).placed, files.Takes v := fun v hv =>
    (htakes v hv).mono (hfiles.dirs (Nat.zero_lt_of_lt hshard))
  have hlater : ∀ v ∈ placedAfter, v.location ≠ w.location := by
    intro v hv heq
    have hvmem : v ∈ (course shard).placed := by
      rw [hplaced]
      exact List.mem_append_right _ (List.mem_cons_of_mem _ hv)
    refine hlast v.file (List.mem_map_of_mem hv) ?_
    rw [PlacedFile.file, (hfinal v hvmem).located, (hfinal w hmem).located, heq]
  refine FileSystem.read_eq_ok_iff.mpr ⟨w.location, ?_, ?_⟩
  · have hlocated := (hfinal w hmem).located
    unfold FileSystem.locateTrimmed at hlocated
    rwa [(hfinal w hmem).trimmed] at hlocated
  · rw [hfiles.agrees shard hshard _ (h.places shard hshard w hmem)]
    rw [hplaced] at htakes ⊢
    exact FileSystem.entry?_placeAll_of_last htakes hlater

end End

/-! ## §4 — one shard after the other -/

section Order

variable {apps : AppTable} {config : Config} {fs : FileSystem} {units : Nat}
  {course : Nat → Course}

/-- The shards from some number on, one after the other. -/
theorem run_shardMessages (h : Independent apps config fs units course) {first : Nat}
    {tasks : List Path}
    (htasks : ∀ i task, tasks[i]? = some task → (course (first + i)).task = task)
    (hunits : first + tasks.length = units) {stages : Nat → Nat} {files : FileSystem}
    (hway : OnTheWay config fs units course stages files)
    (hdone : ∀ shard < first, stages shard = (course shard).placed.length + 3)
    (htodo : ∀ shard < units, first ≤ shard → stages shard = 0) :
    ∃ files', (shardMessages apps config first tasks).run files =
        ((List.range' first tasks.length).map (shardScript apps config course).message, files') ∧
      Ended config fs units course files' := by
  induction tasks generalizing first stages files with
  | nil =>
    refine ⟨files, rfl, hway.ended ?_⟩
    intro shard hshard
    exact hdone shard (by rw [← hunits] at hshard; exact hshard)
  | cons task tasks ih =>
    rw [List.length_cons] at hunits
    have hfirst : first < units := by omega
    have hstage := htodo first hfirst (Nat.le_refl first)
    obtain ⟨files₁, hrun, hway₁⟩ := (carries_shardScript h).run_unit hfirst hway
      (by rw [hstage]; exact Nat.zero_le _)
    have htask : (course first).task = task := htasks 0 task rfl
    rw [hstage] at hrun
    have hrun' : (generateShard apps config first task).run files =
        (.ok (course first).plan.report, files₁) := by
      rw [← htask]
      exact hrun
    -- the remaining shards start where this one ends
    have htasks' : ∀ i task', tasks[i]? = some task' → (course (first + 1 + i)).task = task' := by
      intro i task' htask'
      rw [Nat.add_assoc, Nat.add_comm 1 i]
      exact htasks (i + 1) task' htask'
    have hunits' : first + 1 + tasks.length = units := by omega
    have hdone' : ∀ shard < first + 1, Function.update stages first
        ((shardScript apps config course).last first) shard =
          (course shard).placed.length + 3 := by
      intro shard hshard
      by_cases heq : shard = first
      · rw [heq, Function.update_self]
        rfl
      · rw [Function.update_of_ne heq]
        exact hdone shard (by omega)
    have htodo' : ∀ shard < units, first + 1 ≤ shard → Function.update stages first
        ((shardScript apps config course).last first) shard = 0 := by
      intro shard hshard hle
      rw [Function.update_of_ne (by omega)]
      exact htodo shard hshard (by omega)
    obtain ⟨files₂, hrest, hended⟩ := ih htasks' hunits' hway₁ hdone' htodo'
    refine ⟨files₂, ?_, hended⟩
    show ((generateShard apps config first task).andThen fun answer =>
      (shardMessages apps config (first + 1) tasks).andThen fun messages =>
        .done (⟨first, answer⟩ :: messages)).run files = _
    rw [FileAction.run_andThen, FileAction.run_andThen, hrun', hrest]
    rfl

/-- Reading a file leaves all files alone. -/
theorem run_readWith {α : Type} (p : Path) (parse : Bytes → Except Error α) (fs : FileSystem) :
    ((readWith p parse).run fs).2 = fs := by
  show (((FileAction.readFile p).andThen _).run fs).2 = fs
  rw [FileAction.run_andThen]
  have hread : (FileAction.readFile p).run fs = (fs.read p, fs) := rfl
  rw [hread]
  cases fs.read p with
  | error e => rfl
  | ok contents => rfl

/-- The table is read first, and the messages of the shards are collected at the end. -/
theorem run_generateShards {messages : List (Pool.Message Report)} {final : FileSystem}
    (happs : ((readApps config).run fs).1 = .ok apps)
    (hrun : (shardMessages apps config 0 config.tasks).run fs = (messages, final)) :
    (generateShards config).run fs =
      ((Pool.collect config.tasks.length messages).mapError RunFailure.shard, final) := by
  unfold generateShards
  show ((readApps config).andThen _).run fs = _
  rw [FileAction.run_andThen, happs, readApps, run_readWith]
  show ((shardMessages apps config 0 config.tasks).andThen _).run fs = _
  rw [FileAction.run_andThen, hrun]
  rfl

/-- The shards of a configuration, as the pool gets them. -/
def shardActions (apps : AppTable) (config : Config) : List (FileAction (Except Error Report)) :=
  config.tasks.zipIdx.map fun (task, shard) => generateShard apps config shard task

@[simp]
theorem shardActions_length (apps : AppTable) (config : Config) :
    (shardActions apps config).length = config.tasks.length := by
  unfold shardActions
  rw [List.length_map, List.length_zipIdx]

theorem shardActions_getElem? (apps : AppTable) (config : Config) (shard : Nat) :
    (shardActions apps config)[shard]? =
      config.tasks[shard]?.map (generateShard apps config shard) := by
  unfold shardActions
  rw [List.getElem?_map, List.getElem?_zipIdx, Option.map_map, Nat.zero_add]
  rfl

end Order

/-! ## §5 — every schedule -/

section Schedules

variable (apps : AppTable) (config : Config) (fs : FileSystem)

/-- Each shard has a report when it is alone. -/
def ShardsSucceed : Prop :=
  ∀ shard task, config.tasks[shard]? = some task →
    ∃ report, ((generateShard apps config shard task).run fs).1 = .ok report

/-- No shard writes where another one reads or writes, each of them being alone. -/
def ShardsApart : Prop :=
  ∀ shard other task task', shard ≠ other → config.tasks[shard]? = some task →
    config.tasks[other]? = some task' →
      ∀ location ∈ (generateShard apps config shard task).writes fs,
        location ∉ (generateShard apps config other task').reads fs ∧
          location ∉ (generateShard apps config other task').writes fs

variable {apps config fs}

/-- The courses of all shards. -/
theorem exists_courses (hok : ShardsSucceed apps config fs) (hapart : ShardsApart apps config fs) :
    ∃ course : Nat → Course, Independent apps config fs config.tasks.length course ∧
      ∀ shard task, config.tasks[shard]? = some task →
        (course shard).task = task ∧
        (∀ w ∈ (course shard).placed,
          w.location ∈ (generateShard apps config shard task).writes fs) ∧
        (generateShard apps config shard task).run fs =
          (.ok (course shard).plan.report,
            (bothMade config fs).placeAll (course shard).placed) := by
  have hexists : ∀ shard, ∃ course : Course, ∀ task, config.tasks[shard]? = some task →
      course.task = task ∧ course.Of apps config fs shard ∧
        course.source ∈ (generateShard apps config shard task).reads fs ∧
        (∀ w ∈ course.placed,
          w.location ∈ (generateShard apps config shard task).writes fs) ∧
        (generateShard apps config shard task).run fs =
          (.ok course.plan.report, (bothMade config fs).placeAll course.placed) := by
    intro shard
    cases htask : config.tasks[shard]? with
    | none =>
      -- any course will do behind the last task
      exact ⟨⟨config.apps, [], [], planTraces apps config 0 [], []⟩, fun task h => by cases h⟩
    | some task =>
      obtain ⟨report, hreport⟩ := hok shard task htask
      obtain ⟨course, hcourse⟩ := exists_course hreport
      refine ⟨course, ?_⟩
      rintro task' h
      obtain rfl := Option.some.inj h
      exact hcourse
  choose course hcourse using hexists
  have htask : ∀ shard < config.tasks.length, ∃ task, config.tasks[shard]? = some task :=
    fun shard hshard => ⟨_, List.getElem?_eq_getElem hshard⟩
  refine ⟨course, ⟨?_, ?_, ?_⟩, ?_⟩
  · intro shard hshard
    obtain ⟨task, hget⟩ := htask shard hshard
    exact (hcourse shard task hget).2.1
  · intro shard hshard other hother hne w hw heq
    obtain ⟨task, hget⟩ := htask shard hshard
    obtain ⟨task', hget'⟩ := htask other hother
    obtain ⟨-, -, hsource, -⟩ := hcourse shard task hget
    obtain ⟨-, -, -, hwrites, -⟩ := hcourse other task' hget'
    refine (hapart other shard task' task hne hget' hget w.location (hwrites w hw)).1 ?_
    rw [heq]
    exact hsource
  · intro shard hshard v hv other hother hne w hw heq
    obtain ⟨task, hget⟩ := htask shard hshard
    obtain ⟨task', hget'⟩ := htask other hother
    obtain ⟨-, -, -, hwrites, -⟩ := hcourse shard task hget
    obtain ⟨-, -, -, hwrites', -⟩ := hcourse other task' hget'
    refine (hapart other shard task' task hne hget' hget w.location (hwrites' w hw)).2 ?_
    rw [heq]
    exact hwrites v hv
  · intro shard task hget
    obtain ⟨htask, -, -, hwrites, hrun⟩ := hcourse shard task hget
    exact ⟨htask, hwrites, hrun⟩

/-- **Schedules of shards do not matter.** If every shard has a report when it is alone, and no
shard writes where another one reads or writes, then the shards one after the other have reports
and leave files such that: the report at each position and the files of each shard come from the
contents of its task, the table, the configuration and the seed `randomSeed + shard`; wherever no
other shard writes there is what the shard leaves when it is alone; and a pool with any number of
workers always comes to an end, with the same reports in the same order and the same files. -/
theorem generateShards_schedules (happs : ((readApps config).run fs).1 = .ok apps)
    (hok : ShardsSucceed apps config fs) (hapart : ShardsApart apps config fs) :
    ∃ reports final, (generateShards config).run fs = (.ok reports, final) ∧
      reports.length = config.tasks.length ∧
      (∀ shard task, config.tasks[shard]? = some task →
        ∃ contents plan, fs.read task = .ok contents ∧
          planShard apps config (config.randomSeed + UInt64.ofNat shard) contents = .ok plan ∧
          reports[shard]? = some plan.report ∧
          ((generateShard apps config shard task).run fs).1 = .ok plan.report ∧
          plan.CarriedOut config shard final ∧
          ∀ location, (∀ other task', other ≠ shard → config.tasks[other]? = some task' →
            location ∉ (generateShard apps config other task').writes fs) →
              final.entry? location =
                FileSystem.entry? ((generateShard apps config shard task).run fs).2 location) ∧
      ∀ workers, Pool.AlwaysEnds workers (.initial (shardActions apps config) fs)
        config.tasks.length reports final := by
  obtain ⟨course, hindependent, hcourse⟩ := exists_courses hok hapart
  have hstart : OnTheWay config fs config.tasks.length course (fun _ => 0) fs :=
    .untouched fun _ _ => Nat.zero_le 1
  obtain ⟨final, hrun, hended⟩ := run_shardMessages hindependent
    (fun i task htask => by rw [Nat.zero_add]; exact (hcourse i task htask).1) (Nat.zero_add _)
    hstart (fun shard h => absurd h (Nat.not_lt_zero shard)) (fun _ _ _ => rfl)
  refine ⟨(List.range config.tasks.length).map (shardScript apps config course).value, final,
    ?_, ?_, ?_, ?_⟩
  · rw [run_generateShards happs hrun, Pool.Script.collect_messages]
    rfl
  · rw [List.length_map, List.length_range]
  · intro shard task htask
    obtain ⟨hlt, -⟩ := List.getElem?_eq_some_iff.mp htask
    obtain ⟨rfl, -, halone⟩ := hcourse shard task htask
    have hof := hindependent.courses shard hlt
    refine ⟨(course shard).contents, (course shard).plan, ?_, hof.planned, ?_, ?_,
      hended.carriedOut hindependent hlt, ?_⟩
    · exact FileSystem.read_eq_ok_iff.mpr ⟨_, hof.located, hof.found⟩
    · rw [List.getElem?_map, List.getElem?_range hlt]
      rfl
    · rw [halone]
    · intro location hfree
      rw [halone]
      refine hended.agrees shard hlt location ?_
      intro other hother hne w hw heq
      have hget := List.getElem?_eq_getElem hother
      refine hfree other _ hne hget ?_
      rw [← heq]
      exact (hcourse other _ hget).2.1 w hw
  · intro workers
    have hactions : ∀ shard action, (shardActions apps config)[shard]? = some action →
        action = (shardScript apps config course).residual shard 0 := by
      intro shard action haction
      rw [shardActions_getElem?] at haction
      obtain ⟨task, htask, rfl⟩ := Option.map_eq_some_iff.mp haction
      rw [← (hcourse shard task htask).1]
      rfl
    obtain ⟨left, hinvariant⟩ := Pool.Script.invariant_initial workers hactions hstart
    rw [shardActions_length] at hinvariant
    refine hinvariant.alwaysEnds (carries_shardScript hindependent) ?_
    intro stages files hlast hway
    exact (hway.ended hlast).sameAs hindependent hended

end Schedules

/-! ## §6 — two shards -/

/-- A configuration with two tasks. -/
def twoTasks : Config := { oneDayConfig with tasks := [⟨"a.csv"⟩, ⟨"b.csv"⟩] }

/-- Files for `twoTasks`: one row and two rows of the same application, and its table. -/
def twoFiles : FileSystem where
  entries :=
    [(["apps.csv"], .file (Utf8.encode "HashApp,Count\na,2\n")),
      (["a.csv"], .file (Observation.plainTask [("a", "f")])),
      (["b.csv"], .file (Observation.plainTask [("a", "g"), ("a", "h")]))]
  workingDirectory := []

/-- What a shard of `twoTasks` reads, writes and reports when it is alone. -/
structure DoesAlone (shard : Nat) (task : Path) (sources places : List Location)
    (report : Report) : Prop where
  reads : (generateShard idleTable twoTasks shard task).reads twoFiles = sources
  writes : (generateShard idleTable twoTasks shard task).writes twoFiles = places
  reports : ((generateShard idleTable twoTasks shard task).run twoFiles).1 = .ok report
  /-- Its files are there afterwards. -/
  files : ∀ location ∈ places,
    FileSystem.entry? ((generateShard idleTable twoTasks shard task).run twoFiles).2 location ≠
      none

/-- It is found in the plan of its task. -/
theorem doesAlone_of_plan {shard : Nat} {task : Path} {sources places : List Location}
    {report : Report} {rows : List (String × String)}
    (htask : twoFiles.read task = .ok (Observation.plainTask rows))
    (hknows : ∀ o ∈ Observation.plainObservations rows, idleTable.Knows o.app)
    (h : let action := directoriesThen (planTraces idleTable twoTasks (shardSeed twoTasks shard)
        (Observation.plainObservations rows)) twoTasks shard
      (twoFiles.locate task).toOption.toList ++ action.reads twoFiles = sources ∧
        action.writes twoFiles = places ∧ (action.run twoFiles).1 = .ok report ∧
        ∀ location ∈ places, FileSystem.entry? (action.run twoFiles).2 location ≠ none) :
    DoesAlone shard task sources places report := by
  have hbody : shardBody idleTable twoTasks shard (.ok (Observation.plainTask rows)) = _ :=
    shardBody_of_knows (Observation.readAll_plainTask rows) hknows
  constructor
  · rw [generateShard_eq, FileAction.reads_read, htask, hbody]
    exact h.1
  · rw [generateShard_eq, FileAction.writes_read, htask, hbody]
    exact h.2.1
  · rw [generateShard_eq, FileAction.run_read, htask, hbody]
    exact h.2.2.1
  · rw [generateShard_eq, FileAction.run_read, htask, hbody]
    exact h.2.2.2

theorem doesAlone_first : DoesAlone 0 ⟨"a.csv"⟩ [["a.csv"]]
    [["converted", "f.csv"], ["indices0.csv"]] ⟨1, 1, 1, 0, 0⟩ := by
  apply doesAlone_of_plan (FileSystem.read_eq_ok_iff.mpr ⟨["a.csv"], rfl, rfl⟩)
  · intro o ho
    rw [List.mem_singleton.mp ho]
    exact idleTable_knows
  · decide +kernel

theorem doesAlone_second : DoesAlone 1 ⟨"b.csv"⟩ [["b.csv"]]
    [["converted", "g.csv"], ["converted", "h.csv"], ["indices1.csv"]] ⟨2, 2, 2, 0, 0⟩ := by
  apply doesAlone_of_plan (FileSystem.read_eq_ok_iff.mpr ⟨["b.csv"], rfl, rfl⟩)
  · intro o ho
    rcases List.mem_pair.mp ho with rfl | rfl <;> exact idleTable_knows
  · decide +kernel

/-- The two tasks and their shards. -/
theorem twoTasks_cases {shard : Nat} {task : Path} (h : twoTasks.tasks[shard]? = some task) :
    shard = 0 ∧ task = ⟨"a.csv"⟩ ∨ shard = 1 ∧ task = ⟨"b.csv"⟩ := by
  match shard with
  | 0 => exact .inl ⟨rfl, (Option.some.inj h).symm⟩
  | 1 => exact .inr ⟨rfl, (Option.some.inj h).symm⟩
  | shard + 2 => cases h

theorem shardsSucceed_two : ShardsSucceed idleTable twoTasks twoFiles := by
  intro shard task htask
  rcases twoTasks_cases htask with ⟨rfl, rfl⟩ | ⟨rfl, rfl⟩
  · exact ⟨_, doesAlone_first.reports⟩
  · exact ⟨_, doesAlone_second.reports⟩

/-- Each of the two writes its own traces and its own index. -/
theorem shardsApart_two : ShardsApart idleTable twoTasks twoFiles := by
  intro shard other task task' hne htask htask'
  rcases twoTasks_cases htask with ⟨rfl, rfl⟩ | ⟨rfl, rfl⟩ <;>
    rcases twoTasks_cases htask' with ⟨rfl, rfl⟩ | ⟨rfl, rfl⟩
  · exact absurd rfl hne
  · rw [doesAlone_first.writes, doesAlone_second.reads, doesAlone_second.writes]
    decide
  · rw [doesAlone_second.writes, doesAlone_first.reads, doesAlone_first.writes]
    decide
  · exact absurd rfl hne

/-- The places of the traces of a shard of `twoTasks`. -/
def tracePlaces : Nat → List Location
  | 0 => [["converted", "f.csv"]]
  | _ => [["converted", "g.csv"], ["converted", "h.csv"]]

/-- No trace of one shard is a file of the other. -/
theorem not_mem_writes_of_ne {shard other : Nat} {task task' : Path} {location : Location}
    (htask : twoTasks.tasks[shard]? = some task) (htask' : twoTasks.tasks[other]? = some task')
    (hne : other ≠ shard) (h : location ∈ tracePlaces shard) :
    location ∉ (generateShard idleTable twoTasks other task').writes twoFiles := by
  rcases twoTasks_cases htask with ⟨rfl, rfl⟩ | ⟨rfl, rfl⟩ <;>
    rcases twoTasks_cases htask' with ⟨rfl, rfl⟩ | ⟨rfl, rfl⟩
  · exact absurd rfl hne
  · rw [doesAlone_second.writes]
    revert location
    decide
  · rw [doesAlone_first.writes]
    revert location
    decide
  · exact absurd rfl hne

/-- Two shards with one and two traces, on any number of workers. -/
theorem generateShards_schedules_two :
    ((readApps twoTasks).run twoFiles).1 = .ok idleTable ∧
      ShardsSucceed idleTable twoTasks twoFiles ∧ ShardsApart idleTable twoTasks twoFiles ∧
      ∃ final, (generateShards twoTasks).run twoFiles =
          (.ok [⟨1, 1, 1, 0, 0⟩, ⟨2, 2, 2, 0, 0⟩], final) ∧
        (∀ name ∈ ["f", "g", "h"], final.entry? ["converted", name ++ ".csv"] ≠ none) ∧
        ∀ workers, Pool.AlwaysEnds workers (.initial (shardActions idleTable twoTasks) twoFiles) 2
          [⟨1, 1, 1, 0, 0⟩, ⟨2, 2, 2, 0, 0⟩] final := by
  have happs : ((readApps twoTasks).run twoFiles).1 = .ok idleTable := by decide +kernel
  obtain ⟨reports, final, hrun, hlength, hshards, hends⟩ :=
    generateShards_schedules happs shardsSucceed_two shardsApart_two
  have hkept : ∀ shard task, twoTasks.tasks[shard]? = some task →
      ∀ location ∈ tracePlaces shard, final.entry? location ≠ none := by
    intro shard task htask location hlocation
    obtain ⟨-, -, -, -, -, -, -, hentry⟩ := hshards shard task htask
    rw [hentry location fun other task' hne htask' =>
      not_mem_writes_of_ne htask htask' hne hlocation]
    rcases twoTasks_cases htask with ⟨rfl, rfl⟩ | ⟨rfl, rfl⟩
    · exact doesAlone_first.files location (List.mem_append_left _ hlocation)
    · exact doesAlone_second.files location (List.mem_append_left _ hlocation)
  obtain ⟨-, plan, -, -, hfirst, halone, -⟩ := hshards 0 ⟨"a.csv"⟩ rfl
  obtain ⟨-, plan', -, -, hsecond, halone', -⟩ := hshards 1 ⟨"b.csv"⟩ rfl
  rw [← Except.ok.inj (doesAlone_first.reports.symm.trans halone)] at hfirst
  rw [← Except.ok.inj (doesAlone_second.reports.symm.trans halone')] at hsecond
  obtain ⟨report, report', rfl⟩ := List.length_eq_two.mp hlength
  obtain rfl := Option.some.inj hfirst
  obtain rfl := Option.some.inj hsecond
  refine ⟨happs, shardsSucceed_two, shardsApart_two, final, hrun, ?_, hends⟩
  intro name hname
  rcases List.mem_cons.mp hname with rfl | hname
  · exact hkept 0 _ rfl _ (by decide)
  · exact hkept 1 _ rfl _ (by rcases List.mem_pair.mp hname with rfl | rfl <;> decide)

end WorkloadSynth
