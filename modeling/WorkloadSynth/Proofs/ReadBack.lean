import WorkloadSynth.Proofs.IndexRows
import WorkloadSynth.Proofs.ShardPlan

/-!
# Table files, written and read back

What was written to a path is there when the path is read next (`read_of_writeTable`).  So a table
file is read as what its contents say, and for traces and audit indices that is what they were made
from: `read_written_trace` and `read_written_index` hold for every list of rows, the empty one
included, and for every text and every number in them.
-/

namespace WorkloadSynth

/-! ## §1 — files that have been written -/

section Files

variable {fs written : FileSystem} {p : Path} {location : Location} {contents : Bytes}

theorem run_writeTable (h : fs.WritableAt p location) (contents : Bytes) :
    (writeTable p contents).run fs = (.ok (), fs.insert location (.file contents)) := by
  have hperform : FileAction.performWrite fs p contents =
      (.ok (), fs.insert location (.file contents)) := by
    unfold FileAction.performWrite
    rw [h.write contents]
  show FileAction.run (.write p contents _) fs = _
  rw [FileAction.run, hperform]
  rfl

theorem run_writeTable_of_error {cause : FileError} (h : fs.write p contents = .error cause) :
    (writeTable p contents).run fs = (.error (.csv (.file cause)), fs) := by
  show FileAction.run (.write p contents _) fs = _
  rw [FileAction.run, FileAction.performWrite, h]
  rfl

theorem FileSystem.WritableAt.read_eq_ok (h : fs.WritableAt p location)
    (hfile : fs.entry? location = some (.file contents)) : fs.read p = .ok contents := by
  refine FileSystem.read_eq_ok_iff.mpr ⟨location, ?_, hfile⟩
  have hlocated := h.located
  unfold FileSystem.locateTrimmed at hlocated
  rwa [h.trimmed] at hlocated

/-- What is written to a place is read from it. -/
theorem FileSystem.WritableAt.read_insert (h : fs.WritableAt p location) (contents : Bytes) :
    (fs.insert location (.file contents)).read p = .ok contents := by
  apply (h.mono (h.sameDirectories contents)).read_eq_ok
  rw [entry?_insert h.notDirectory, if_pos rfl]

/-- A table can only be written where a file can be. -/
theorem exists_writableAt_of_writeTable
    (h : (writeTable p contents).run fs = (.ok (), written)) :
    ∃ location, fs.WritableAt p location ∧ written = fs.insert location (.file contents) := by
  cases hwrite : fs.write p contents with
  | error e =>
    rw [run_writeTable_of_error hwrite] at h
    cases h
  | ok fs' =>
    obtain ⟨location, hwritable, -⟩ := FileSystem.of_write_eq_ok hwrite
    rw [run_writeTable hwritable] at h
    exact ⟨location, hwritable, (congrArg Prod.snd h).symm⟩

/-- **What was written is there.** -/
theorem read_of_writeTable (h : (writeTable p contents).run fs = (.ok (), written)) :
    written.read p = .ok contents := by
  obtain ⟨location, hwritable, rfl⟩ := exists_writableAt_of_writeTable h
  exact hwritable.read_insert contents

theorem run_readWith_of_read {α : Type} (parse : Bytes → Except Error α)
    (h : fs.read p = .ok contents) : (readWith p parse).run fs = (parse contents, fs) := by
  show FileAction.run (.read p _) fs = _
  rw [FileAction.run, h]
  rfl

end Files

/-- No files, in the root directory. -/
def emptyFiles : FileSystem := ⟨[], []⟩

theorem writableAt_emptyFiles {p : Path} {location : Location}
    (hlocated : emptyFiles.locateTrimmed p = .ok location) (htrimmed : p.trimSlashes = p)
    (hne : location ≠ []) : emptyFiles.WritableAt p location := by
  refine ⟨hlocated, htrimmed, ?_⟩
  obtain ⟨name, names, rfl⟩ := List.exists_cons_of_ne_nil hne
  exact nofun

/-! ## §2 — traces -/

namespace Trace

theorem writable_rows (trace : Trace) : Csv.Writable (header :: trace.map Sample.toFields) := by
  apply Csv.writable_of_width 7 (by decide)
  · intro row hrow
    rcases List.mem_cons.mp hrow with rfl | h
    · rfl
    · obtain ⟨s, -, rfl⟩ := List.mem_map.mp h
      rfl
  · decide +kernel

/-- The cells of a row. -/
theorem readNamed_toFields (s : Sample) :
    ∃ cells, schema.readNamed header s.toFields = .ok cells ∧ Sample.ofCells cells = s := by
  obtain ⟨cpu, hcpu, hcpuBits⟩ := Csv.CellType.exists_read_number s.cpuUsed
  obtain ⟨mem, hmem, hmemBits⟩ := Csv.CellType.exists_read_number s.memUsed
  have hreads : Csv.Schema.Reads schema.columns s.toFields
      [.word s.time, .word s.invocations, .word s.exec, .word s.cpuProvisioned,
        .word s.memProvisioned, .number cpu, .number mem] :=
    .cons (Csv.CellType.read_word s.time) (.cons (Csv.CellType.read_word s.invocations)
      (.cons (Csv.CellType.read_word s.exec) (.cons (Csv.CellType.read_word s.cpuProvisioned)
        (.cons (Csv.CellType.read_word s.memProvisioned) (.cons hcpu (.cons hmem .nil))))))
  have hcpuFloat : cpu.toFloat = s.cpuUsed := by
    rw [← cpu.ofBits_toBits, hcpuBits, Float.ofBits_toBits]
  have hmemFloat : mem.toFloat = s.memUsed := by
    rw [← mem.ofBits_toBits, hmemBits, Float.ofBits_toBits]
  refine ⟨_, Csv.Schema.readNamed_of_reads (by decide) hreads, ?_⟩
  show Sample.mk s.time s.invocations s.exec s.cpuProvisioned s.memProvisioned cpu.toFloat
    mem.toFloat = s
  rw [hcpuFloat, hmemFloat]

/-- **The contents of a trace file say the trace.** -/
theorem ofBytes_toBytes (trace : Trace) : ofBytes (toBytes trace) = .ok trace := by
  have hwritable := writable_rows trace
  have htable : schema.readTable Sample.ofCells (toBytes trace) = .ok (trace.map id) := by
    apply Csv.Schema.readTable_write
    · exact hwritable
    · exact fun s _ => rfl
    · exact fun s _ => readNamed_toFields s
  rw [List.map_id] at htable
  unfold ofBytes
  rw [show (Csv.Table.ofBytes (toBytes trace)).header.texts = .ok header from
    Csv.header_texts_write hwritable]
  dsimp only
  rw [if_pos rfl, htable]
  rfl

end Trace

/-- **A trace file is read back.** Wherever a trace was written, the same trace is read: the same
rows in the same order, with the same whole numbers and, bit for bit, the same doubles.  There is
one double that is not a number, and it comes back too. -/
theorem read_written_trace {fs written : FileSystem} {p : Path} (trace : Trace)
    (h : (writeTable p (Trace.toBytes trace)).run fs = (.ok (), written)) :
    (readWith p Trace.ofBytes).run written = (.ok trace, written) := by
  rw [run_readWith_of_read _ (read_of_writeTable h), Trace.ofBytes_toBytes]

/-- Rows at the limits of their fields: the largest words and the smallest, a negative zero, an
infinity, a subnormal double and one that is not a number. -/
def extremeTrace : Trace :=
  [⟨18446744073709551615, 18446744073709551615, 0, 0, 1, -0.0, 1.0 / 0.0⟩,
    ⟨0, 9007199254740993, 1, 18446744073709551615, 0, 5e-324, 0.0 / 0.0⟩]

theorem read_written_trace_extremes :
    ∃ written, (writeTable ⟨"t.csv"⟩ (Trace.toBytes extremeTrace)).run emptyFiles =
        (.ok (), written) ∧
      (readWith ⟨"t.csv"⟩ Trace.ofBytes).run written = (.ok extremeTrace, written) := by
  have hwritable : emptyFiles.WritableAt ⟨"t.csv"⟩ ["t.csv"] :=
    writableAt_emptyFiles (by decide +kernel) (by decide +kernel) (List.cons_ne_nil _ _)
  have hwritten := run_writeTable hwritable (Trace.toBytes extremeTrace)
  exact ⟨_, hwritten, read_written_trace extremeTrace hwritten⟩

/-! ## §3 — audit indices -/

/-- What is read where a row was written: the same row, but for the pattern of a popularity that is
not a number. -/
structure IndexRow.ReadAs (r read : IndexRow) : Prop where
  app : read.app = r.app
  count : read.count = r.count
  indices : read.indices = r.indices
  number : r.popularity.value.isNaN = false → read.popularity = r.popularity
  notNumber : r.popularity.value.isNaN = true → read.popularity.value.isNaN = true

theorem IndexRow.readAs_canonical (r : IndexRow) : r.ReadAs r.canonical where
  app := rfl
  count := rfl
  indices := rfl
  number h := Popularity.canonical_of_number h
  notNumber h := by
    show r.popularity.canonical.value.isNaN = true
    rw [Popularity.value_canonical, h]

/-- The rows that are read from the file of some rows. -/
theorem IndexRow.forall₂_readAs (rows : List IndexRow) :
    List.Forall₂ IndexRow.ReadAs rows (rows.map IndexRow.canonical) := by
  rw [List.forall₂_map_right_iff, List.forall₂_same]
  exact fun r _ => r.readAs_canonical

/-- **An index file is read back.** Wherever rows were written, as many rows are read, and they are
the same in the same order, whatever their texts are made of. -/
theorem read_written_index {fs written : FileSystem} {p : Path} (rows : List IndexRow)
    (h : (writeTable p (IndexRow.fileOf rows)).run fs = (.ok (), written)) :
    ∃ read, (readWith p fun contents =>
        (IndexRow.readAll contents).mapError Error.csv).run written = (.ok read, written) ∧
      List.Forall₂ IndexRow.ReadAs rows read := by
  refine ⟨rows.map IndexRow.canonical, ?_, IndexRow.forall₂_readAs rows⟩
  rw [run_readWith_of_read _ (read_of_writeTable h), IndexRow.readAll_fileOf]
  rfl

/-- Rows whose texts hold separators, quotes and line ends, or nothing. -/
def awkwardRows : List IndexRow :=
  [⟨"", 0, ⟨0x8000000000000000⟩, ""⟩, ⟨"a,\"b\"\r\n", 18446744073709551615, ⟨1⟩, " x\"y \n"⟩,
    ⟨"\"", 1, ⟨0xfff8000000000001⟩, ",\r"⟩]

theorem read_written_index_awkward :
    ∃ written, (writeTable ⟨"i.csv"⟩ (IndexRow.fileOf awkwardRows)).run emptyFiles =
        (.ok (), written) ∧
      ∃ read, (readWith ⟨"i.csv"⟩ fun contents =>
          (IndexRow.readAll contents).mapError Error.csv).run written = (.ok read, written) ∧
        List.Forall₂ IndexRow.ReadAs awkwardRows read := by
  have hwritable : emptyFiles.WritableAt ⟨"i.csv"⟩ ["i.csv"] :=
    writableAt_emptyFiles (by decide +kernel) (by decide +kernel) (List.cons_ne_nil _ _)
  have hwritten := run_writeTable hwritable (IndexRow.fileOf awkwardRows)
  exact ⟨_, hwritten, read_written_index awkwardRows hwritten⟩

end WorkloadSynth
