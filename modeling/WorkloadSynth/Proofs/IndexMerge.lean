import WorkloadSynth.Proofs.ReadBack

/-!
# Merging the indices of shards

The audits of several shards are indices of one table, each after additions of its own.  They are
written to files and merged (`mergeIndexFiles`).  The file that comes out lists every application of
the table once, with its data, and with what was added for it in all shards
(`mergeIndexFiles_audits`): neither the way through text nor the join on application, count and
popularity drops anything.
-/

namespace WorkloadSynth

/-! ## §1 — indices of a file system -/

/-- Reads an index file. -/
def readIndex (p : Path) : FileAction (Except Error (List IndexRow)) :=
  readWith p fun contents => (IndexRow.readAll contents).mapError Error.csv

/-- What comes of reading an index. -/
def FileSystem.indexAt (fs : FileSystem) (p : Path) : Except Error (List IndexRow) :=
  ((readIndex p).run fs).1

section Read

variable (fs : FileSystem)

/-- Reading an index changes nothing. -/
theorem run_readIndex (p : Path) : (readIndex p).run fs = (fs.indexAt p, fs) := by
  have hrun : ((readIndex p).run fs).2 = fs := by
    show (FileAction.run (.read p _) fs).2 = fs
    rw [FileAction.run]
    cases fs.read p with
    | error e => rfl
    | ok contents => rfl
  exact Prod.ext rfl hrun

theorem FileSystem.indexAt_of_read {fs : FileSystem} {p : Path} {contents : Bytes}
    (h : fs.read p = .ok contents) :
    fs.indexAt p = (IndexRow.readAll contents).mapError Error.csv := by
  unfold indexAt readIndex
  rw [run_readWith_of_read _ h]

/-- Indices are read one after the other. -/
theorem run_readIndices_eq_mapM (inputs : List Path) :
    (readIndices inputs).run fs = (inputs.mapM fs.indexAt, fs) := by
  induction inputs with
  | nil => rfl
  | cons p inputs ih =>
    show ((readIndex p).andThen _).run fs = _
    rw [FileAction.run_andThen, run_readIndex, List.mapM_cons]
    cases fs.indexAt p with
    | error e => rfl
    | ok rows =>
      show ((readIndices inputs).andThen _).run fs = _
      rw [FileAction.run_andThen, ih]
      cases inputs.mapM fs.indexAt with
      | error e => rfl
      | ok shards => rfl

end Read

/-! ## §2 — the merged file -/

section Files

variable {fs : FileSystem} {p : Path} {location : Location}

/-- Merging ends with the merged rows in the output file. -/
theorem run_mergeIndexFiles {inputs : List Path} {shards : List (List IndexRow)}
    (hread : (readIndices inputs).run fs = (.ok shards, fs)) (h : fs.WritableAt p location) :
    (mergeIndexFiles inputs p).run fs = (.ok (IndexRow.merge shards).length,
      fs.insert location (.file (IndexRow.fileOf (IndexRow.merge shards)))) := by
  show ((readIndices inputs).andThen _).run fs = _
  rw [FileAction.run_andThen, hread]
  show ((writeTable p (IndexRow.fileOf (IndexRow.merge shards))).andThen _).run fs = _
  rw [FileAction.run_andThen, run_writeTable h]
  rfl

end Files

/-! ## §3 — audits -/

/-- The audit of a shard: where its index is written to, and the traces that are added to it, each
under an application. -/
structure ShardAudit where
  path : Path
  adds : List (String × String)

namespace ShardAudit

/-- The index of an audit: that of the table, with the additions. -/
def index (t : AppTable) (a : ShardAudit) : AuditIndex := (AuditIndex.ofTable t).addAll a.adds

/-- The contents of the file of an audit. -/
def contents (t : AppTable) (a : ShardAudit) : Bytes := IndexRow.fileOf (a.index t).rows

/-- The traces of an application, in one text. -/
def text (a : ShardAudit) (app : String) : String := unwords (AuditIndex.added a.adds app)

end ShardAudit

/-- Writes the indices of audits, up to the first that cannot be written. -/
def writeAudits (t : AppTable) : List ShardAudit → FileAction (Except Error Unit)
  | [] => return .ok ()
  | a :: audits => do
    match ← writeTable a.path (a.contents t) with
    | .error e => return .error e
    | .ok () => writeAudits t audits

/-- The records of a table as they are read back. -/
def AppTable.readBack (t : AppTable) : List AppRecord := t.indexed.map AppRecord.canonical

theorem AppTable.apps_readBack (t : AppTable) : t.readBack.map (·.app) = t.apps := by
  unfold readBack
  rw [List.map_map]
  exact t.apps_indexed

theorem AppTable.map_canonical_readBack (t : AppTable) :
    t.readBack.map AppRecord.canonical = t.readBack := by
  unfold readBack
  rw [List.map_map]
  exact List.map_congr_left fun r _ => r.canonical_canonical

/-- What is read from the file of an audit. -/
theorem ShardAudit.readAll_contents (t : AppTable) (a : ShardAudit) :
    IndexRow.readAll (a.contents t) = .ok (IndexRow.rowsOf t.readBack a.text) := by
  unfold contents index
  rw [IndexRow.readAll_fileOf, AuditIndex.rows_addAll_ofTable, IndexRow.map_canonical_rowsOf]
  rfl

section Audits

variable (t : AppTable) {audits : List ShardAudit} {fs : FileSystem} {place : Path → Location}

/-- Every index is written, and none is written over. -/
theorem run_writeAudits (hwritable : ∀ a ∈ audits, fs.WritableAt a.path (place a.path))
    (hdistinct : (audits.map fun a => place a.path).Nodup) :
    ∃ written, (writeAudits t audits).run fs = (.ok (), written) ∧
      fs.SameDirectories written ∧
      (∀ a ∈ audits, written.entry? (place a.path) = some (.file (a.contents t))) ∧
      ∀ l ∉ audits.map fun a => place a.path, written.entry? l = fs.entry? l := by
  induction audits generalizing fs with
  | nil => exact ⟨fs, rfl, .refl fs, nofun, fun l _ => rfl⟩
  | cons a audits ih =>
    have hhead := hwritable a List.mem_cons_self
    have hsame := hhead.sameDirectories (a.contents t)
    rw [List.map_cons, List.nodup_cons] at hdistinct
    obtain ⟨written, hrun, hdirs, hfiles, hothers⟩ := ih
      (fun b hb => (hwritable b (List.mem_cons_of_mem a hb)).mono hsame) hdistinct.2
    refine ⟨written, ?_, hsame.trans hdirs, ?_, ?_⟩
    · show ((writeTable a.path (a.contents t)).andThen _).run fs = _
      rw [FileAction.run_andThen, run_writeTable hhead]
      exact hrun
    · intro b hb
      rcases List.mem_cons.mp hb with rfl | hb
      -- the later files are at other places
      · rw [hothers _ hdistinct.1, FileSystem.entry?_insert hhead.notDirectory, if_pos rfl]
      · exact hfiles b hb
    · intro l hl
      rw [List.map_cons, List.mem_cons, not_or] at hl
      rw [hothers l hl.2, FileSystem.entry?_insert hhead.notDirectory, if_neg hl.1]

/-- The indices are read back. -/
theorem run_readIndices (hwritable : ∀ a ∈ audits, fs.WritableAt a.path (place a.path))
    (hfiles : ∀ a ∈ audits, fs.entry? (place a.path) = some (.file (a.contents t))) :
    (readIndices (audits.map (·.path))).run fs =
      (.ok (audits.map fun a => IndexRow.rowsOf t.readBack a.text), fs) := by
  rw [run_readIndices_eq_mapM, Csv.mapM_eq_ok]
  rw [List.forall₂_map_left_iff, List.forall₂_map_right_iff, List.forall₂_same]
  intro a ha
  have hread := (hwritable a ha).read_eq_ok (hfiles a ha)
  rw [FileSystem.indexAt_of_read hread, a.readAll_contents t]
  rfl

end Audits

/-! ## §4 — the merged index -/

/-- **Writing the audits of shards and merging them loses nothing.** The merged file lists every
application of the table once, in the order of the table, with its number of functions and its
popularity.  Its traces are those that were added for it, in the order of the shards and of the
additions; a name with blanks counts as several, and an empty one as none. -/
theorem mergeIndexFiles_audits (t : AppTable) {audits : List ShardAudit} (hne : audits ≠ [])
    {fs : FileSystem} (place : Path → Location)
    (hwritable : ∀ a ∈ audits, fs.WritableAt a.path (place a.path))
    (hdistinct : (audits.map fun a => place a.path).Nodup)
    {output : Path} {location : Location} (houtput : fs.WritableAt output location) :
    ∃ written merged contents rows,
      (writeAudits t audits).run fs = (.ok (), written) ∧
      (mergeIndexFiles (audits.map (·.path)) output).run written = (.ok rows.length, merged) ∧
      merged.read output = .ok contents ∧ IndexRow.readAll contents = .ok rows ∧
      rows.map (·.app) = t.apps ∧
      ∀ row ∈ rows, ∃ record, t.get? row.app = some record ∧ row.count = record.count ∧
        row.popularity.value = record.popularity.value ∧
        (record.popularity.value.isNaN = false → row.popularity = record.popularity) ∧
        row.ids = (audits.flatMap fun a => (AuditIndex.added a.adds row.app).flatMap words) ∧
        ((∀ a ∈ audits, ∀ x ∈ a.adds, IsWord x.2) →
          row.ids = audits.flatMap fun a => AuditIndex.added a.adds row.app) := by
  obtain ⟨written, hwritten, hdirs, hfiles, -⟩ := run_writeAudits t hwritable hdistinct
  have hnodup : (t.readBack.map (·.app)).Nodup := by
    rw [t.apps_readBack]
    exact t.apps_nodup
  have hreads := run_readIndices t (fun a ha => (hwritable a ha).mono hdirs) hfiles
  have htexts : audits.map ShardAudit.text ≠ [] := fun h => hne (List.map_eq_nil_iff.mp h)
  obtain ⟨text, hmerge, hwords⟩ := IndexRow.merge_rowsOf hnodup htexts
  have hmerge' : IndexRow.merge (audits.map fun a => IndexRow.rowsOf t.readBack a.text) =
      IndexRow.rowsOf t.readBack text := by
    rw [← hmerge, List.map_map]
    rfl
  have hout := houtput.mono hdirs
  have hout' := hout.mono (hout.sameDirectories (IndexRow.fileOf (IndexRow.rowsOf t.readBack text)))
  refine ⟨written, _, _, IndexRow.rowsOf t.readBack text, hwritten, ?_,
    hout'.read_eq_ok (by rw [FileSystem.entry?_insert hout.notDirectory, if_pos rfl]), ?_, ?_, ?_⟩
  · rw [run_mergeIndexFiles hreads hout, hmerge']
  · rw [IndexRow.readAll_fileOf, IndexRow.map_canonical_rowsOf, t.map_canonical_readBack]
  · unfold IndexRow.rowsOf
    rw [List.map_map]
    exact t.apps_readBack
  · intro row hrow
    obtain ⟨record', hrecord', rfl⟩ := List.mem_map.mp hrow
    obtain ⟨record, hrecord, rfl⟩ := List.mem_map.mp hrecord'
    have hids : (IndexRow.ofRecord record.canonical (text record.app)).ids =
        audits.flatMap fun a => (AuditIndex.added a.adds record.app).flatMap words := by
      show words (text record.app) = _
      rw [hwords, List.flatMap_map]
      exact List.flatMap_congr fun a _ => words_unwords _
    refine ⟨record, AppTable.get?_of_mem_indexed hrecord, rfl, record.popularity.value_canonical,
      Popularity.canonical_of_number, hids, ?_⟩
    intro hplain
    exact hids.trans (List.flatMap_congr fun a ha => AuditIndex.flatMap_words_added (hplain a ha) _)

/-- Two shards of a table in which one application stands twice and another has no number for its
popularity. -/
def twoAuditsTable : AppTable :=
  ⟨[⟨"web", 2, ⟨0x3ff0000000000000⟩⟩, ⟨"job", 1, ⟨0xfff8000000000001⟩⟩,
    ⟨"web", 3, ⟨0x8000000000000000⟩⟩]⟩

def twoAudits : List ShardAudit :=
  [⟨⟨"0.csv"⟩, [("web", "t1"), ("job", "t2"), ("other", "t3")]⟩, ⟨⟨"1.csv"⟩, [("web", "t4 t5")]⟩]

/-- The audits of two shards, merged into the file of the first. -/
theorem mergeIndexFiles_audits_two :
    twoAudits ≠ [] ∧ (∀ a ∈ twoAudits, emptyFiles.WritableAt a.path [a.path.text]) ∧
      (twoAudits.map fun a => [a.path.text]).Nodup ∧ emptyFiles.WritableAt ⟨"0.csv"⟩ ["0.csv"] ∧
      ∃ written merged contents rows,
        (writeAudits twoAuditsTable twoAudits).run emptyFiles = (.ok (), written) ∧
        (mergeIndexFiles [⟨"0.csv"⟩, ⟨"1.csv"⟩] ⟨"0.csv"⟩).run written =
          (.ok rows.length, merged) ∧
        merged.read ⟨"0.csv"⟩ = .ok contents ∧ IndexRow.readAll contents = .ok rows ∧
        rows.map (·.app) = ["web", "job"] ∧
        ∀ row ∈ rows, row.app = "web" → row.count = 3 ∧ row.popularity = ⟨0x8000000000000000⟩ ∧
          row.ids = ["t1", "t4", "t5"] := by
  have hne : twoAudits ≠ [] := List.cons_ne_nil _ _
  have hwritable : ∀ a ∈ twoAudits, emptyFiles.WritableAt a.path [a.path.text] := by
    intro a ha
    rcases List.mem_cons.mp ha with rfl | ha
    · exact ⟨by decide +kernel, by decide +kernel, by decide +kernel⟩
    · rw [List.mem_singleton.mp ha]
      exact ⟨by decide +kernel, by decide +kernel, by decide +kernel⟩
  have hdistinct : (twoAudits.map fun a => [a.path.text]).Nodup := by decide
  have houtput := hwritable _ List.mem_cons_self
  obtain ⟨written, merged, contents, rows, hwritten, hmerged, hread, hrows, happs, hdata⟩ :=
    mergeIndexFiles_audits twoAuditsTable hne (fun p => [p.text]) hwritable hdistinct houtput
  refine ⟨hne, hwritable, hdistinct, houtput, written, merged, contents, rows, hwritten, hmerged,
    hread, hrows, happs.trans (by decide +kernel), ?_⟩
  intro row hrow hweb
  obtain ⟨record, hrecord, hcount, -, hpopularity, hids, -⟩ := hdata row hrow
  rw [hweb] at hrecord hids
  have hweb' : twoAuditsTable.get? "web" = some ⟨"web", 3, ⟨0x8000000000000000⟩⟩ := by
    decide +kernel
  obtain rfl := Option.some.inj (hweb'.symm.trans hrecord)
  exact ⟨hcount, hpopularity (by decide +kernel), hids.trans (by decide +kernel)⟩

end WorkloadSynth
