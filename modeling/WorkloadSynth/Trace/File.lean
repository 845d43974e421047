import WorkloadSynth.Csv.Row
import WorkloadSynth.Csv.Writer
import WorkloadSynth.Trace.Basic

/-!
# Trace files

A trace file is a table with a fixed header, three labels of which begin with a space.  `toBytes`
writes a trace and `ofBytes` reads one, checking the header literally.
-/

namespace WorkloadSynth

namespace Trace

/-- The columns of a trace file. -/
def schema : Csv.Schema where
  columns := [
    ⟨"Timestamp [ms]", .word, true⟩,
    ⟨"Invocations", .word, true⟩,
    ⟨" Avg Exec time per Invocation", .word, true⟩,
    ⟨"Provisioned CPU [Mhz]", .word, true⟩,
    ⟨"Provisioned Memory [mb]", .word, true⟩,
    ⟨" Avg cpu usage per Invocation [Mhz]", .number, true⟩,
    ⟨" Avg mem usage per Invocation [mb]", .number, true⟩]
  label := "struct FunctionSample with 7 elements"

/-- The header of a trace file. -/
def header : List String := schema.columns.map (·.name)

end Trace

/-- The fields of a row. -/
def Sample.toFields (s : Sample) : List String :=
  [toString s.time.toNat, toString s.invocations.toNat, toString s.exec.toNat,
    toString s.cpuProvisioned.toNat, toString s.memProvisioned.toNat,
    Csv.number s.cpuUsed, Csv.number s.memUsed]

/-- A row from the cells of a record. -/
def Sample.ofCells (cells : Csv.Cells) : Sample where
  time := cells.word "Timestamp [ms]"
  invocations := cells.word "Invocations"
  exec := cells.word " Avg Exec time per Invocation"
  cpuProvisioned := cells.word "Provisioned CPU [Mhz]"
  memProvisioned := cells.word "Provisioned Memory [mb]"
  cpuUsed := (cells.number " Avg cpu usage per Invocation [Mhz]").toFloat
  memUsed := (cells.number " Avg mem usage per Invocation [mb]").toFloat

namespace Trace

/-- The contents of a trace file. -/
def toBytes (trace : Trace) : Bytes := Csv.write (header :: trace.map Sample.toFields)

/-- Reads the contents of a trace file. -/
def ofBytes (bytes : Bytes) : Except Error Trace :=
  match (Csv.Table.ofBytes bytes).header.texts with
  | .error e => .error (.csv e)
  | .ok labels =>
    if labels = header then (schema.readTable Sample.ofCells bytes).mapError Error.csv
    else .error (.malformedRow 1 (.traceHeader labels))

end Trace

end WorkloadSynth
