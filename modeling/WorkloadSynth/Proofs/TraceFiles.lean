import WorkloadSynth.Proofs.Accounting
import WorkloadSynth.Proofs.NumberText
import WorkloadSynth.Proofs.ShardRefusals
import WorkloadSynth.Proofs.UnitNames

/-!
# The files of traces

Files that are joined to one directory without a slash are entries of that directory
(`FileSystem.exists_directory`).  What such a file holds behind a shard is the last trace with its
name, so every trace that is counted as written has its own file if the names of the units are
different (`generateShard_traceFiles`).
-/

namespace WorkloadSynth

/-! ## §1 — files in a directory -/

theorem splitSlashes_of_not_mem {cs : List Char} (h : '/' ∉ cs) : splitSlashes cs = [cs] := by
  induction cs with
  | nil => rfl
  | cons c cs ih =>
    obtain ⟨hc, hcs⟩ := not_or.mp (mt List.mem_cons.mpr h)
    rw [splitSlashes, if_neg (Ne.symm hc), ih hcs]

namespace Path

/-- What stands in front of a joined path: nothing, or a text that ends in a slash. -/
theorem exists_front (base : Path) :
    ∃ front : List Char, (front = [] ∨ ∃ cs, front = cs ++ ['/']) ∧
      ∀ p : Path, p.isAbsolute = false → (base.join p).text.toList = front ++ p.text.toList := by
  by_cases hempty : base.text.isEmpty = true
  · refine ⟨[], .inl rfl, ?_⟩
    intro p _
    rw [join, hempty, Bool.or_true, if_pos rfl, List.nil_append]
  · have hbase : ∀ p : Path, p.isAbsolute = false → (p.isAbsolute || base.text.isEmpty) ≠ true := by
      intro p hp
      rw [hp, Bool.false_or]
      exact hempty
    by_cases hlast : base.text.toList.getLast? = some '/'
    · refine ⟨base.text.toList, .inr (List.getLast?_eq_some_iff.mp hlast), ?_⟩
      intro p hp
      rw [join, if_neg (hbase p hp), if_pos hlast, String.toList_append]
    · refine ⟨base.text.toList ++ ['/'], .inr ⟨_, rfl⟩, ?_⟩
      intro p hp
      rw [join, if_neg (hbase p hp), if_neg hlast, String.toList_append, String.toList_append]
      rfl

/-- Joined to one base, all files begin at one place, and their names stand behind the same
pieces. -/
theorem exists_pieces_join (base : Path) :
    ∃ (absolute : Bool) (ahead : List String), ∀ file : String, '/' ∉ file.toList →
      (base.join ⟨file⟩).isAbsolute = absolute ∧ (base.join ⟨file⟩).pieces = ahead ++ [file] := by
  obtain ⟨front, hfront, hjoin⟩ := base.exists_front
  have hrelative : ∀ file : String, '/' ∉ file.toList → isAbsolute ⟨file⟩ = false := by
    intro file hfile
    refine decide_eq_false ?_
    intro hhead
    exact hfile (List.mem_of_mem_head? hhead)
  rcases hfront with rfl | ⟨cs, rfl⟩
  · refine ⟨false, [], ?_⟩
    intro file hfile
    have htext := hjoin ⟨file⟩ (hrelative file hfile)
    rw [List.nil_append] at htext
    unfold isAbsolute pieces
    rw [htext, splitSlashes_of_not_mem hfile]
    refine ⟨hrelative file hfile, ?_⟩
    rw [List.map_singleton, String.ofList_toList]
    rfl
  · refine ⟨decide ((cs ++ ['/']).head? = some '/'), (splitSlashes cs).map String.ofList, ?_⟩
    intro file hfile
    have htext := hjoin ⟨file⟩ (hrelative file hfile)
    unfold isAbsolute pieces
    rw [htext]
    refine ⟨?_, ?_⟩
    · cases cs with
      | nil => rfl
      | cons c cs => rfl
    · rw [List.append_assoc, List.singleton_append, splitSlashes_append_cons,
        splitSlashes_of_not_mem hfile, List.map_append, List.map_singleton, String.ofList_toList]

end Path

namespace FileSystem

/-- A name with a suffix names an entry of its own. -/
theorem enter_csv {location result : Location} {name : String}
    (h : enter location (name ++ ".csv") = .ok result) :
    result = location ++ [name ++ ".csv"] := by
  have hlong : ∀ short : String, short.length < 4 → name ++ ".csv" ≠ short := by
    rintro short hshort rfl
    rw [String.length_append] at hshort
    exact absurd hshort (Nat.not_lt.mpr (Nat.le_add_left 4 name.length))
  unfold enter at h
  rw [if_neg (not_or.mpr ⟨hlong "" (by decide), hlong "." (by decide)⟩),
    if_neg (hlong ".." (by decide))] at h
  split at h
  · cases h
  · exact (Except.ok.inj h).symm

/-- **The directory of files.** Files with names that are joined to one base are entries of one
directory. -/
theorem exists_directory (fs : FileSystem) (base : Path) :
    ∃ directory : Location, ∀ {name : String} {p : Path} {location : Location},
      '/' ∉ name.toList → p = base.join ⟨name ++ ".csv"⟩ → fs.WritableAt p location →
      fs.locate p = .ok location ∧ location = directory ++ [name ++ ".csv"] := by
  obtain ⟨absolute, ahead, hjoin⟩ := base.exists_pieces_join
  have hplace : ∀ {name : String} {p : Path} {location : Location}, '/' ∉ name.toList →
      p = base.join ⟨name ++ ".csv"⟩ → fs.WritableAt p location →
      fs.locate p = .ok location ∧
        ∃ middle, fs.follow (if absolute then [] else fs.workingDirectory) ahead = .ok middle ∧
          location = middle ++ [name ++ ".csv"] := by
    rintro name p location hname rfl hwritable
    have hfile : '/' ∉ (name ++ ".csv").toList := by
      rw [String.toList_append, List.mem_append, not_or]
      exact ⟨hname, by decide⟩
    obtain ⟨habsolute, hpieces⟩ := hjoin _ hfile
    have hlocated := hwritable.located
    unfold locateTrimmed at hlocated
    rw [hwritable.trimmed] at hlocated
    refine ⟨hlocated, ?_⟩
    rw [resolve_eq_follow hlocated, hpieces, start, habsolute] at hlocated
    obtain ⟨middle, hmiddle, hlast⟩ := exists_of_follow_append_eq_ok hlocated
    obtain ⟨-, result, henter, hend⟩ := of_follow_cons_eq_ok hlast
    rw [← Except.ok.inj hend]
    exact ⟨middle, hmiddle, enter_csv henter⟩
  -- if the base leads nowhere, nothing can be written there
  cases hbase : fs.follow (if absolute then [] else fs.workingDirectory) ahead with
  | error e =>
    refine ⟨[], ?_⟩
    intro name p location hname hp hwritable
    obtain ⟨-, middle, hmiddle, -⟩ := hplace hname hp hwritable
    rw [hbase] at hmiddle
    cases hmiddle
  | ok directory =>
    refine ⟨directory, ?_⟩
    intro name p location hname hp hwritable
    obtain ⟨hlocated, middle, hmiddle, hlocation⟩ := hplace hname hp hwritable
    rw [hbase] at hmiddle
    rw [Except.ok.inj hmiddle]
    exact ⟨hlocated, hlocation⟩

end FileSystem

/-! ## §2 — what the files hold -/

/-- Is a name that of a file for a trace of a shard?  It is no path, and not the name of the
index. -/
def IsTraceName (shard : Nat) (name : String) : Prop :=
  '/' ∉ name.toList ∧ name ≠ "indices" ++ toString shard

theorem slash_not_mem_indexName (shard : Nat) : '/' ∉ ("indices" ++ toString shard).toList := by
  rw [String.toList_append, List.mem_append, not_or]
  refine ⟨by decide, ?_⟩
  intro hmem
  have hdigit := allDigits_toDigits shard '/' (by rwa [← Nat.toList_repr])
  revert hdigit
  decide

theorem csv_inj {name name' : String} {directory directory' : Location}
    (h : directory ++ [name ++ ".csv"] = directory' ++ [name' ++ ".csv"]) : name = name' := by
  obtain ⟨-, hlast⟩ := List.append_inj' h rfl
  have hlists := congrArg String.toList (List.singleton_inj.mp hlast)
  rw [String.toList_append, String.toList_append] at hlists
  exact String.toList_inj.mp (List.append_cancel_right hlists)

section Courses

variable {apps : AppTable} {config : Config} {fs : FileSystem} {shard : Nat} {course : Course}

/-- The traces of a shard are entries of one directory in the end. -/
theorem Course.Of.exists_directory (h : course.Of apps config fs shard)
    (hnames : ∀ t ∈ course.plan.traces, '/' ∉ t.name.toList) :
    ∃ directory : Location, ∀ t ∈ course.plan.traces,
      FileSystem.locate ((bothMade config fs).placeAll course.placed) (config.tracePath t.name) =
        .ok (directory ++ [t.name ++ ".csv"]) := by
  obtain ⟨directory, hdirectory⟩ := (bothMade config fs).exists_directory config.outputDir
  refine ⟨directory, ?_⟩
  intro t ht
  have hmem : traceFile config t ∈ course.placed.map PlacedFile.file := by
    rw [← h.files]
    exact List.mem_append_left _ (List.mem_map_of_mem ht)
  obtain ⟨w, hw, hfile⟩ := List.mem_map.mp hmem
  have hpath : w.path = config.tracePath t.name := congrArg Prod.fst hfile
  obtain ⟨hlocated, hlocation⟩ := hdirectory (hnames t ht) hpath (h.takes w hw)
  rw [← hpath, ← hlocation]
  exact FileSystem.resolve_of_directoriesIn
    (FileSystem.sameDirectories_placeAll h.takes).into hlocated

/-- **The last trace with a name is the one that its file holds.** -/
theorem Course.Of.read_last (h : course.Of apps config fs shard)
    {before after : List GeneratedTrace} {t : GeneratedTrace}
    (htraces : course.plan.traces = before ++ t :: after) (ht : IsTraceName shard t.name)
    (hafter : ∀ t' ∈ after, '/' ∉ t'.name.toList ∧ t'.name ≠ t.name) :
    FileSystem.read ((bothMade config fs).placeAll course.placed) (config.tracePath t.name) =
      .ok (Trace.toBytes t.trace) := by
  have hfiles := h.files
  unfold ShardPlan.files at hfiles
  rw [htraces, List.map_append, List.map_cons, List.append_assoc, List.cons_append] at hfiles
  obtain ⟨placedBefore, rest, hplaced, -, hrest⟩ := List.map_eq_append_iff.mp hfiles.symm
  obtain ⟨w, placedAfter, rfl, hw, hlater⟩ := List.map_eq_cons_iff.mp hrest
  have htakes := h.takes
  rw [hplaced] at htakes ⊢
  have hpath : w.path = config.tracePath t.name := congrArg Prod.fst hw
  have hcontents : w.contents = Trace.toBytes t.trace := congrArg Prod.snd hw
  obtain ⟨directory, hdirectory⟩ := (bothMade config fs).exists_directory config.outputDir
  obtain ⟨hlocated, hlocation⟩ := hdirectory ht.1 hpath
    (htakes w (List.mem_append_right _ List.mem_cons_self))
  -- neither a later trace nor the index is put in the same place
  have hlast : ∀ v ∈ placedAfter, v.location ≠ w.location := by
    intro v hv heq
    have hvtakes := htakes v (List.mem_append_right _ (List.mem_cons_of_mem _ hv))
    have hfile : v.file ∈ placedAfter.map PlacedFile.file := List.mem_map_of_mem hv
    rw [hlater] at hfile
    rcases List.mem_append.mp hfile with hfile | hfile
    · obtain ⟨t', ht', hv'⟩ := List.mem_map.mp hfile
      obtain ⟨hslash, hne⟩ := hafter t' ht'
      have hvpath : v.path = config.tracePath t'.name := (congrArg Prod.fst hv').symm
      obtain ⟨-, hvlocation⟩ := hdirectory hslash hvpath hvtakes
      rw [hlocation, hvlocation] at heq
      exact hne (csv_inj heq)
    · have hvpath : v.path = config.indexPath shard :=
        congrArg Prod.fst (List.mem_singleton.mp hfile)
      obtain ⟨_, hindex⟩ := (bothMade config fs).exists_directory config.indexDir
      obtain ⟨-, hvlocation⟩ := hindex (slash_not_mem_indexName shard) hvpath hvtakes
      rw [hlocation, hvlocation] at heq
      exact ht.2 (csv_inj heq).symm
  rw [FileSystem.read_eq_ok_iff, ← hcontents, ← hpath]
  refine ⟨w.location, ?_, FileSystem.entry?_placeAll_of_last htakes hlast⟩
  exact FileSystem.resolve_of_directoriesIn
    (FileSystem.sameDirectories_placeAll htakes).into hlocated

end Courses

/-! ## §3 — one file for each trace -/

/-- The files of the traces of a shard, given these traces with their units. -/
structure TraceFiles (config : Config) (sent : List (TraceUnit × GeneratedTrace))
    (fs : FileSystem) : Prop where
  /-- They are in one directory, each under the name of its unit. -/
  located : ∃ directory : Location, ∀ x ∈ sent,
    fs.locate (config.tracePath x.1.name) = .ok (directory ++ [x.1.name ++ ".csv"])
  /-- Each of them holds the last trace with its name. -/
  last : ∀ before x after, sent = before ++ x :: after → (∀ y ∈ after, y.1.name ≠ x.1.name) →
    fs.read (config.tracePath x.1.name) = .ok (Trace.toBytes x.2.trace)

/-- If no name comes twice, every trace is the last one with its name. -/
theorem TraceFiles.read_of_nodup {config : Config} {sent : List (TraceUnit × GeneratedTrace)}
    {fs : FileSystem} (h : TraceFiles config sent fs) (hnames : (sent.map (·.1.name)).Nodup)
    {x : TraceUnit × GeneratedTrace} (hx : x ∈ sent) :
    fs.read (config.tracePath x.1.name) = .ok (Trace.toBytes x.2.trace) := by
  obtain ⟨before, after, rfl⟩ := List.append_of_mem hx
  refine h.last before x after rfl ?_
  intro y hy heq
  rw [List.map_append, List.map_cons] at hnames
  have htail := (List.nodup_append.mp hnames).2.1
  refine (List.nodup_cons.mp htail).1 ?_
  rw [← heq]
  exact List.mem_map_of_mem hy

section Shard

variable {apps : AppTable} {config : Config} {fs : FileSystem} {shard : Nat}

theorem planTraces_of_planShard_eq_ok {seed : UInt64} {contents : Bytes}
    {observations : List Observation} {plan : ShardPlan}
    (hread : Observation.readAll contents = .ok observations)
    (h : planShard apps config seed contents = .ok plan) :
    plan = planTraces apps config seed observations := by
  unfold planShard at h
  rw [hread] at h
  dsimp only at h
  split at h
  · cases h
  · exact (Except.ok.inj h).symm

/-- The units of some traces have some of the names of all units. -/
theorem names_sublist {observations : List Observation}
    {sent : List (TraceUnit × GeneratedTrace)} {p : TraceUnit → Bool}
    (h : sent.map (·.1) = (config.units observations).filter p) :
    (sent.map (·.1.name)).Sublist (config.unitNames observations) := by
  have hunits : (sent.map (·.1)).Sublist (config.units observations) := by
    rw [h]
    exact List.filter_sublist
  have hnames := hunits.map (·.name)
  rwa [List.map_map] at hnames

/-- The files of the traces behind a shard whose course is known. -/
theorem Course.Of.traceFiles {course : Course} (h : course.Of apps config fs shard)
    {sent : List (TraceUnit × GeneratedTrace)} (hsent : course.plan.traces = sent.map (·.2))
    (hreports : ∀ x ∈ sent, x.2.Reports x.1)
    (hnames : ∀ x ∈ sent, IsTraceName shard x.1.name) :
    TraceFiles config sent ((bothMade config fs).placeAll course.placed) := by
  have hname : ∀ x ∈ sent, IsTraceName shard x.2.name := by
    intro x hx
    rw [(hreports x hx).name]
    exact hnames x hx
  refine ⟨?_, ?_⟩
  · have hslash : ∀ t ∈ course.plan.traces, '/' ∉ t.name.toList := by
      intro t ht
      rw [hsent] at ht
      obtain ⟨x, hx, rfl⟩ := List.mem_map.mp ht
      exact (hname x hx).1
    obtain ⟨directory, hdirectory⟩ := h.exists_directory hslash
    refine ⟨directory, ?_⟩
    intro x hx
    rw [← (hreports x hx).name]
    apply hdirectory
    rw [hsent]
    exact List.mem_map_of_mem hx
  · rintro before x after rfl hlast
    have hx : x ∈ before ++ x :: after := List.mem_append_right _ List.mem_cons_self
    rw [List.map_append, List.map_cons] at hsent
    rw [← (hreports x hx).name]
    refine h.read_last hsent (hname x hx) ?_
    intro t' ht'
    obtain ⟨y, hy, rfl⟩ := List.mem_map.mp ht'
    have hy' : y ∈ before ++ x :: after :=
      List.mem_append_right _ (List.mem_cons_of_mem _ hy)
    refine ⟨(hname y hy').1, ?_⟩
    rw [(hreports y hy').name, (hreports x hx).name]
    exact hlast y hy

/-- **Where the traces of a shard are.** The names of its units are different if the ids of the
observations tell them apart and, in daily mode, have no opening parenthesis; observations whose
units have different names are told apart.  Without a column for ids the names are different in
continuous mode, and in daily mode exactly if every function was observed once.

If the shard has a report, it counts the traces of the units with that fate, and if the names of all
units are names of trace files, the file of each name holds the last of these traces with that name.
So every trace has its own file if the names are different. -/
theorem generateShard_traceFiles {contents : Bytes} {observations : List Observation}
    (hread : Observation.readAll contents = .ok observations) (apps : AppTable) (config : Config)
    (shard : Nat) :
    ((config.unitNames observations).Nodup → Observation.ToldApart config.mode observations) ∧
    (Observation.ToldApart config.mode observations →
      (config.mode = .daily → ∀ o ∈ observations, '(' ∉ o.id.toList) →
      (config.unitNames observations).Nodup) ∧
    (Observation.NoIdColumn contents →
      ((config.unitNames observations).Nodup ↔
        (config.mode = .daily → (observations.map (·.function)).Nodup))) ∧
    ∀ task fs report fs', fs.read task = .ok contents →
      (generateShard apps config shard task).run fs = (.ok report, fs') →
      ∃ sent : List (TraceUnit × GeneratedTrace),
        sent.map (·.1) =
          (config.units observations).filter (fun unit => unit.fate apps config = .written) ∧
        sent.map (·.2) = (planTraces apps config (shardSeed config shard) observations).traces ∧
        (∀ x ∈ sent, x.2.Reports x.1) ∧ report.written = sent.length ∧
        ((∀ name ∈ config.unitNames observations, IsTraceName shard name) →
          TraceFiles config sent fs' ∧
          ((config.unitNames observations).Nodup → ∀ x ∈ sent,
            fs'.read (config.tracePath x.1.name) = .ok (Trace.toBytes x.2.trace))) := by
  refine ⟨toldApart_of_unitNames_nodup, unitNames_nodup_of_toldApart,
    unitNames_nodup_iff_of_noIdColumn hread, ?_⟩
  intro task fs report fs' htask hrun
  obtain ⟨course, rfl, hcourse, -, -, halone⟩ :=
    exists_course (show ((generateShard apps config shard task).run fs).1 = .ok report by rw [hrun])
  -- the course reads the same task
  have hcontents : course.contents = contents := by
    have hagain := FileSystem.read_eq_ok_iff.mpr ⟨_, hcourse.located, hcourse.found⟩
    rw [htask] at hagain
    exact (Except.ok.inj hagain).symm
  have hplanned := hcourse.planned
  rw [hcontents] at hplanned
  have hplan := planTraces_of_planShard_eq_ok hread hplanned
  rw [hrun] at halone
  obtain ⟨hreport, rfl⟩ := Prod.mk.inj halone
  have hsucceeds := hcourse.succeeds
  rw [hplan] at hsucceeds
  obtain ⟨sent, hcompletes, hsent⟩ := completes_of_generateTraces_ok hsucceeds
  have hunits := hcompletes.sent_units
  refine ⟨sent, hunits, hsent.symm, fun x hx => hcompletes.reports hx, ?_, ?_⟩
  · have hwritten := hcompletes.accounts.written
    rw [List.length_map] at hwritten
    rw [Except.ok.inj hreport, hplan]
    exact hwritten
  · intro hnames
    have hmem : ∀ x ∈ sent, x.1.name ∈ config.unitNames observations := fun x hx =>
      List.mem_map_of_mem (hcompletes.mem_units hx)
    have htraces : course.plan.traces = sent.map (·.2) := by
      rw [hplan]
      exact hsent
    have hfiles := hcourse.traceFiles htraces (fun x hx => hcompletes.reports hx)
      fun x hx => hnames _ (hmem x hx)
    exact ⟨hfiles, fun hnodup x hx =>
      hfiles.read_of_nodup (hnodup.sublist (names_sublist hunits)) hx⟩

end Shard

/-- A task with a column for ids. -/
def numberedTask : Bytes :=
  Csv.write (plainNames ["id"] ::
    [("f", "1"), ("g", "2")].map fun row => plainFields "a" row.1 "0" [row.2])

/-- What is read of that task. -/
def numberedObservations : List Observation :=
  [("f", "1"), ("g", "2")].map fun row => plainObservation "a" row.1 0 1 row.2

theorem readAll_numberedTask :
    Observation.readAll numberedTask = .ok numberedObservations := by
  have htrailing : TrailingColumns.ofHeader (plainNames ["id"]) = ⟨none, some Layout.width⟩ :=
    Observation.ofHeader_plainNames ["id"]
  apply Observation.readAll_plain
  · intro row _
    exact Observation.plainFields_length ..
  · intro row _
    have hid : Observation.field (plainFields "a" row.1 "0" [row.2]).toArray Layout.width =
        row.2 := Observation.field_plainFields_more "a" row.1 "0" [row.2] 0
    rw [htrailing]
    have hday : Observation.readDay (plainFields "a" row.1 "0" [row.2]).toArray
        (TrailingColumns.mk none (some Layout.width)).day = .ok 1 := rfl
    have hfields := Observation.ofFields_plainFields "a" row.1 [row.2]
      (fun _ _ h => Observation.readCount_zero h) hday
    rw [hfields]
    simp [hid]

/-- Two functions with ids of their own, each with its own file. -/
theorem generateShard_traceFiles_numbered :
    (taskFiles numberedTask).read ⟨"task.csv"⟩ = .ok numberedTask ∧
      Observation.readAll numberedTask = .ok numberedObservations ∧
      oneDayConfig.unitNames numberedObservations = ["1", "2"] ∧
      ∃ fs', (generateShard idleTable oneDayConfig 0 ⟨"task.csv"⟩).run (taskFiles numberedTask) =
          (.ok ⟨2, 2, 2, 0, 0⟩, fs') ∧
        ∃ t t' : GeneratedTrace,
          (planTraces idleTable oneDayConfig (shardSeed oneDayConfig 0)
            numberedObservations).traces = [t, t'] ∧
          fs'.read (oneDayConfig.tracePath "1") = .ok (Trace.toBytes t.trace) ∧
          fs'.read (oneDayConfig.tracePath "2") = .ok (Trace.toBytes t'.trace) := by
  have htask := read_taskFiles numberedTask
  have hnames : oneDayConfig.unitNames numberedObservations = ["1", "2"] := by decide +kernel
  have hknows : ∀ o ∈ numberedObservations, idleTable.Knows o.app := by
    intro o ho
    obtain ⟨row, -, rfl⟩ := List.mem_map.mp ho
    exact idleTable_knows
  have hreport : ((generateShard idleTable oneDayConfig 0 ⟨"task.csv"⟩).run
      (taskFiles numberedTask)).1 = .ok ⟨2, 2, 2, 0, 0⟩ := by
    rw [run_generateShard_of_knows htask readAll_numberedTask hknows]
    decide +kernel
  obtain ⟨fs', hrun⟩ := FileAction.exists_run_eq hreport
  refine ⟨htask, readAll_numberedTask, hnames, fs', hrun, ?_⟩
  obtain ⟨-, -, -, hfiles⟩ :=
    generateShard_traceFiles readAll_numberedTask idleTable oneDayConfig 0
  obtain ⟨sent, hunits, htraces, -, hwritten, hkept⟩ := hfiles _ _ _ _ htask hrun
  have hplain : ∀ name ∈ oneDayConfig.unitNames numberedObservations, IsTraceName 0 name := by
    rw [hnames]
    intro name hname
    rcases List.mem_pair.mp hname with rfl | rfl
    · exact ⟨by decide, by decide⟩
    · exact ⟨by decide, by decide⟩
  obtain ⟨-, hread⟩ := hkept hplain
  -- both units were written
  have hsent : sent.map (·.1.name) = ["1", "2"] := by
    rw [← hnames]
    refine (names_sublist hunits).eq_of_length ?_
    rw [hnames, List.length_map, ← hwritten]
    rfl
  obtain ⟨x, rest, rfl, hx, hrest⟩ := List.map_eq_cons_iff.mp hsent
  obtain ⟨y, last, rfl, hy, hlast⟩ := List.map_eq_cons_iff.mp hrest
  obtain rfl := List.map_eq_nil_iff.mp hlast
  have hdistinct : (oneDayConfig.unitNames numberedObservations).Nodup := by
    rw [hnames]
    decide
  refine ⟨x.2, y.2, htraces.symm, ?_, ?_⟩
  · rw [← hx]
    exact hread hdistinct x List.mem_cons_self
  · rw [← hy]
    exact hread hdistinct y (List.mem_cons_of_mem _ List.mem_cons_self)

end WorkloadSynth
