import Mathlib
import WorkloadSynth.Proofs.ShardPlan

/-!
# The course of a shard that is alone

The locations that an action reads and writes when nothing else is going on are its footprint.  A
shard that has a report reads its task, finds or makes both directories, and puts every file of its
plan in its place (`exists_course`).
-/

namespace WorkloadSynth

/-! ## §1 — footprints -/

namespace FileAction

variable {α : Type}

/-- The locations that an action reads when it runs alone. -/
def reads (action : FileAction α) (fs : FileSystem) : List Location :=
  match action with
  | .done _ => []
  | .read p next => (fs.locate p).toOption.toList ++ (next (fs.read p)).reads fs
  | .write p contents next =>
    let (r, fs) := performWrite fs p contents
    (next r).reads fs
  | .makeDirectories p next =>
    let (r, fs) := fs.makeDirectories p
    (next r).reads fs

/-- The locations that an action writes files at when it runs alone. -/
def writes (action : FileAction α) (fs : FileSystem) : List Location :=
  match action with
  | .done _ => []
  | .read p next => (next (fs.read p)).writes fs
  | .write p contents next =>
    let (r, fs') := performWrite fs p contents
    (fs.locateTrimmed p).toOption.toList ++ (next r).writes fs'
  | .makeDirectories p next =>
    let (r, fs) := fs.makeDirectories p
    (next r).writes fs

section Performing

variable (p : Path) (contents : Bytes) (fs : FileSystem)

theorem run_read (next : Except FileError Bytes → FileAction α) :
    (read p next).run fs = (next (fs.read p)).run fs := rfl

theorem reads_read (next : Except FileError Bytes → FileAction α) :
    (read p next).reads fs = (fs.locate p).toOption.toList ++ (next (fs.read p)).reads fs := rfl

theorem writes_read (next : Except FileError Bytes → FileAction α) :
    (read p next).writes fs = (next (fs.read p)).writes fs := rfl

theorem run_write (next : Except FileError Unit → FileAction α) :
    (write p contents next).run fs =
      (next (performWrite fs p contents).1).run (performWrite fs p contents).2 := rfl

theorem writes_write (next : Except FileError Unit → FileAction α) :
    (write p contents next).writes fs = (fs.locateTrimmed p).toOption.toList ++
      (next (performWrite fs p contents).1).writes (performWrite fs p contents).2 := rfl

theorem run_makeDirectories (next : Except FileError Unit → FileAction α) :
    (makeDirectories p next).run fs =
      (next (fs.makeDirectories p).1).run (fs.makeDirectories p).2 := rfl

theorem writes_makeDirectories (next : Except FileError Unit → FileAction α) :
    (makeDirectories p next).writes fs =
      (next (fs.makeDirectories p).1).writes (fs.makeDirectories p).2 := rfl

end Performing

end FileAction

/-! ## §2 — files in their places -/

/-- A file with its path, and the location that the path leads to. -/
structure PlacedFile where
  path : Path
  contents : Bytes
  location : Location

/-- The file without its location. -/
def PlacedFile.file (w : PlacedFile) : Path × Bytes := (w.path, w.contents)

namespace FileSystem

variable {fs fs' : FileSystem}

/-- The file system with a file in its place. -/
def place (fs : FileSystem) (w : PlacedFile) : FileSystem := fs.insert w.location (.file w.contents)

/-- The file system with files in their places, the last ones on top. -/
def placeAll (fs : FileSystem) (placed : List PlacedFile) : FileSystem := placed.foldl place fs

/-- The path of a placed file leads to its location, and a file can be there. -/
def Takes (fs : FileSystem) (w : PlacedFile) : Prop := fs.WritableAt w.path w.location

theorem Takes.mono {w : PlacedFile} (h : fs.Takes w) (hdirs : fs.SameDirectories fs') :
    fs'.Takes w :=
  WritableAt.mono h hdirs

theorem Takes.sameDirectories {w : PlacedFile} (h : fs.Takes w) :
    fs.SameDirectories (fs.place w) :=
  WritableAt.sameDirectories h w.contents

theorem Takes.performWrite {w : PlacedFile} (h : fs.Takes w) :
    FileAction.performWrite fs w.path w.contents = (.ok (), fs.place w) := by
  unfold FileAction.performWrite
  rw [WritableAt.write h]
  rfl

theorem Takes.entry?_place {w : PlacedFile} (h : fs.Takes w) (location : Location) :
    entry? (fs.place w) location =
      if location = w.location then some (.file w.contents) else fs.entry? location :=
  entry?_insert h.notDirectory location

theorem sameDirectories_placeAll {placed : List PlacedFile} (h : ∀ w ∈ placed, fs.Takes w) :
    fs.SameDirectories (fs.placeAll placed) := by
  induction placed generalizing fs with
  | nil => exact .refl fs
  | cons w placed ih =>
    have hdirs := (h w List.mem_cons_self).sameDirectories
    exact hdirs.trans (ih fun v hv => (h v (List.mem_cons_of_mem _ hv)).mono hdirs)

/-- Placing files changes nothing anywhere else. -/
theorem entry?_placeAll_of_ne {placed : List PlacedFile} (h : ∀ w ∈ placed, fs.Takes w)
    {location : Location} (hne : ∀ w ∈ placed, w.location ≠ location) :
    entry? (fs.placeAll placed) location = fs.entry? location := by
  induction placed generalizing fs with
  | nil => rfl
  | cons w placed ih =>
    have hw := h w List.mem_cons_self
    have htail : ∀ v ∈ placed, (fs.place w).Takes v := fun v hv =>
      (h v (List.mem_cons_of_mem _ hv)).mono hw.sameDirectories
    have hrest := ih htail fun v hv => hne v (List.mem_cons_of_mem _ hv)
    refine hrest.trans ?_
    rw [hw.entry?_place, if_neg (hne w List.mem_cons_self).symm]

/-- The last file at a location is what stands there. -/
theorem entry?_placeAll_of_last {before after : List PlacedFile} {w : PlacedFile}
    (h : ∀ v ∈ before ++ w :: after, fs.Takes v)
    (hlast : ∀ v ∈ after, v.location ≠ w.location) :
    entry? (fs.placeAll (before ++ w :: after)) w.location = some (.file w.contents) := by
  have hbefore := sameDirectories_placeAll fun v hv => h v (List.mem_append_left _ hv)
  have hw := (h w (List.mem_append_right _ List.mem_cons_self)).mono hbefore
  have hafter : ∀ v ∈ after, ((fs.placeAll before).place w).Takes v := by
    intro v hv
    refine ((h v ?_).mono hbefore).mono hw.sameDirectories
    exact List.mem_append_right _ (List.mem_cons_of_mem _ hv)
  unfold placeAll
  rw [List.foldl_append, List.foldl_cons]
  refine (entry?_placeAll_of_ne hafter hlast).trans ?_
  exact (hw.entry?_place _).trans (if_pos rfl)

end FileSystem

/-- **Writing that gets through.** If writing files and going on ends well, every file has found its
place. -/
theorem of_run_writeAll {α : Type} {files : List (Path × Bytes)}
    {next : FileAction (Except Error α)} {fs : FileSystem} {value : α}
    (h : ((writeAll files next).run fs).1 = .ok value) :
    ∃ placed : List PlacedFile, files = placed.map PlacedFile.file ∧ (∀ w ∈ placed, fs.Takes w) ∧
      (∀ w ∈ placed, w.location ∈ (writeAll files next).writes fs) ∧
      (writeAll files next).run fs = next.run (fs.placeAll placed) := by
  induction files generalizing fs with
  | nil => exact ⟨[], rfl, fun w hw => absurd hw List.not_mem_nil, fun w hw =>
      absurd hw List.not_mem_nil, rfl⟩
  | cons file files ih =>
    obtain ⟨p, contents⟩ := file
    rw [writeAll, FileAction.run_write] at h
    rw [writeAll, FileAction.run_write, FileAction.writes_write]
    cases hwrite : fs.write p contents with
    | error e =>
      rw [FileAction.performWrite, hwrite] at h
      cases h
    | ok fs' =>
      obtain ⟨location, hwritable, rfl⟩ := FileSystem.of_write_eq_ok hwrite
      have hw : fs.Takes ⟨p, contents, location⟩ := hwritable
      -- a write moves no directory, so the later places are the same before it and behind it
      rw [hw.performWrite] at h ⊢
      dsimp only at h ⊢
      obtain ⟨placed, hfiles, htakes, hwrites, hrun⟩ := ih h
      refine ⟨⟨p, contents, location⟩ :: placed, by rw [hfiles]; rfl, ?_, ?_, hrun⟩
      · intro w hmem
        rcases List.mem_cons.mp hmem with rfl | hmem
        · exact hw
        · exact (htakes w hmem).mono hw.sameDirectories.symm
      · intro w hmem
        rw [hwritable.located]
        rcases List.mem_cons.mp hmem with rfl | hmem
        · exact List.mem_cons_self
        · exact List.mem_cons_of_mem _ (hwrites w hmem)

/-! ## §3 — courses -/

section Courses

variable (apps : AppTable) (config : Config) (fs : FileSystem)

/-- The file system with the directory for traces. -/
def outputMade : FileSystem := (fs.makeDirectories config.outputDir).2

/-- The file system with both directories. -/
def bothMade : FileSystem := ((outputMade config fs).makeDirectories config.indexDir).2

theorem grows_outputMade : fs.Grows (outputMade config fs) :=
  FileSystem.grows_makeDirectories fs config.outputDir

theorem grows_bothMade : (outputMade config fs).Grows (bothMade config fs) :=
  FileSystem.grows_makeDirectories (outputMade config fs) config.indexDir

/-- What a shard goes through: where its task is and what is in it, its plan, and the files of the
plan in their places. -/
structure Course where
  task : Path
  source : Location
  contents : Bytes
  plan : ShardPlan
  placed : List PlacedFile

/-- A course is the one that a shard takes alone. -/
structure Course.Of (shard : Nat) (course : Course) : Prop where
  located : fs.locate course.task = .ok course.source
  found : fs.entry? course.source = some (.file course.contents)
  planned : planShard apps config (shardSeed config shard) course.contents = .ok course.plan
  succeeds : course.plan.result = .ok ()
  files : course.plan.files config shard = course.placed.map PlacedFile.file
  outputDir : fs.makeDirectories config.outputDir = (.ok (), outputMade config fs)
  indexDir : (outputMade config fs).makeDirectories config.indexDir = (.ok (), bothMade config fs)
  takes : ∀ w ∈ course.placed, (bothMade config fs).Takes w

variable {apps config fs}

theorem carryOut_of_ok {plan : ShardPlan} {shard : Nat} (h : plan.result = .ok ()) :
    carryOut plan config shard =
      writeAll (plan.files config shard) (.done (.ok plan.report)) := by
  unfold carryOut ShardPlan.files
  rw [h, writeAll_append]

theorem of_run_carryOut {plan : ShardPlan} {shard : Nat} {report : Report}
    (h : ((carryOut plan config shard).run fs).1 = .ok report) : plan.result = .ok () := by
  unfold carryOut at h
  obtain ⟨placed, -, -, -, hrun⟩ := of_run_writeAll h
  rw [hrun] at h
  cases hresult : plan.result with
  | error e =>
    rw [hresult] at h
    cases h
  | ok u => rfl

/-- **A shard that has a report.** -/
theorem exists_course {shard : Nat} {task : Path} {report : Report}
    (h : ((generateShard apps config shard task).run fs).1 = .ok report) :
    ∃ course : Course, course.task = task ∧ course.Of apps config fs shard ∧
      course.source ∈ (generateShard apps config shard task).reads fs ∧
      (∀ w ∈ course.placed, w.location ∈ (generateShard apps config shard task).writes fs) ∧
      (generateShard apps config shard task).run fs =
        (.ok course.plan.report, (bothMade config fs).placeAll course.placed) := by
  rw [generateShard_eq] at h ⊢
  rw [FileAction.run_read] at h
  rw [FileAction.run_read, FileAction.reads_read, FileAction.writes_read]
  -- an operation that fails leaves the shard without a report, so none of them did
  cases hread : fs.read task with
  | error e => rw [hread] at h; cases h
  | ok contents =>
    rw [hread] at h
    obtain ⟨source, hsource, hentry⟩ := FileSystem.read_eq_ok_iff.mp hread
    unfold shardBody at h ⊢
    dsimp only at h ⊢
    cases hplan : planShard apps config (shardSeed config shard) contents with
    | error e => rw [hplan] at h; cases h
    | ok plan =>
      rw [hplan] at h
      dsimp only at h ⊢
      rw [directoriesThen, FileAction.run_makeDirectories] at h
      rw [directoriesThen, FileAction.run_makeDirectories, FileAction.writes_makeDirectories]
      obtain ⟨r, hr⟩ : ∃ r, fs.makeDirectories config.outputDir = (r, outputMade config fs) :=
        ⟨_, rfl⟩
      rw [hr] at h ⊢
      cases r with
      | error e => cases h
      | ok u =>
        dsimp only at h ⊢
        rw [indexDirectoryThen, FileAction.run_makeDirectories] at h
        rw [indexDirectoryThen, FileAction.run_makeDirectories,
          FileAction.writes_makeDirectories]
        obtain ⟨r, hr'⟩ : ∃ r, (outputMade config fs).makeDirectories config.indexDir =
            (r, bothMade config fs) := ⟨_, rfl⟩
        rw [hr'] at h ⊢
        cases r with
        | error e => cases h
        | ok u =>
          dsimp only at h ⊢
          have hsucceeds := of_run_carryOut h
          rw [carryOut_of_ok hsucceeds] at h ⊢
          obtain ⟨placed, hfiles, htakes, hwrites, hrun⟩ := of_run_writeAll h
          refine ⟨⟨task, source, contents, plan, placed⟩, rfl,
            ⟨hsource, hentry, hplan, hsucceeds, hfiles, hr, hr', htakes⟩, ?_, hwrites, hrun⟩
          rw [hsource]
          exact List.mem_cons_self

end Courses

end WorkloadSynth
