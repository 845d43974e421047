import WorkloadSynth.AuditIndex.Basic
import WorkloadSynth.Text.Blank

/-!
# Audit index files

An index file has one row per application, whose traces stand in one field with spaces between
them.
-/

namespace WorkloadSynth

/-- A row of an index file. -/
structure IndexRow where
  app : String
  count : UInt64
  popularity : Popularity
  /-- The traces of the application, separated by blanks. -/
  indices : String
deriving DecidableEq, Repr

namespace IndexRow

/-- The traces listed in a row. -/
def ids (r : IndexRow) : List String := words r.indices

/-- What has to agree for two rows to be about the same application. -/
def key (r : IndexRow) : String × UInt64 × Popularity := (r.app, r.count, r.popularity)

/-- The row of an entry. -/
def ofEntry (e : AuditEntry) : IndexRow :=
  ⟨e.record.app, e.record.count, e.record.popularity, unwords e.ids⟩

/-! ## Files -/

/-- The columns of an index file. -/
def schema : Csv.Schema where
  columns := [
    ⟨"HashApp", .text, true⟩,
    ⟨"Count", .word, true⟩,
    ⟨"popularity", .number, false⟩,
    ⟨"indices", .text, false⟩]
  label := "struct IndexRow with 4 elements"

/-- A row from the cells of a record. -/
def ofCells (cells : Csv.Cells) : IndexRow :=
  ⟨cells.text "HashApp", cells.word "Count", .ofLiteral (cells.number "popularity"),
    cells.text "indices"⟩

/-- The fields of a row. -/
def toFields (r : IndexRow) : List String :=
  [r.app, toString r.count.toNat, r.popularity.toField, r.indices]

/-- The contents of an index file. -/
def fileOf (rows : List IndexRow) : Bytes :=
  Csv.write (schema.columns.map (·.name) :: rows.map toFields)

/-- Reads the contents of an index file. -/
def readAll (bytes : Bytes) : Except Csv.Error (List IndexRow) := schema.readTable ofCells bytes

end IndexRow

/-- The rows of an index. -/
def AuditIndex.rows (index : AuditIndex) : List IndexRow := index.entries.map IndexRow.ofEntry

end WorkloadSynth
