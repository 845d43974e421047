import WorkloadSynth.Csv.Reader

/-!
# Typed rows

A `Schema` lists the columns that a kind of row needs.  Columns are found by their exact header
name, in header order, and unknown ones are passed over.  A table whose header is not text is read
by position instead.
-/

namespace WorkloadSynth.Csv

/-- The types of columns. -/
inductive CellType where
  | text
  | word
  | number
deriving DecidableEq, Repr

/-- The value of a cell. -/
inductive Cell where
  | text (value : String)
  | word (value : UInt64)
  | number (value : Literal)
deriving DecidableEq, Repr

/-- A column of a schema. -/
structure Column where
  name : String
  type : CellType
  /-- A column that is not required may be absent and counts as empty or zero then. -/
  required : Bool
deriving DecidableEq, Repr

/-- The columns of a kind of row, in order. -/
structure Schema where
  columns : List Column
  /-- The kind of row in messages. -/
  label : String
deriving DecidableEq, Repr

/-- A whole number: decimal digits, or hexadecimal ones behind `0x`. -/
def readWordCell (cs : List Char) : Except WordFault UInt64 :=
  match cs with
  | '0' :: 'x' :: digits => readWord 16 digits
  | cs => readWord 10 cs

/-- Reads a cell of a type. -/
def CellType.read : CellType → String → Except CellFault Cell
  | .text, s => .ok (.text s)
  | .word, s => ((readWordCell s.toList).map Cell.word).mapError CellFault.word
  | .number, s => ((Literal.read s.toList).map Cell.number).mapError CellFault.number

/-! ## Cells by name -/

/-- The cells found in a row, under their column names. -/
abbrev Cells := List (String × Cell)

namespace Cells

/-- The text in a column, empty if absent. -/
def text (cells : Cells) (name : String) : String :=
  match cells.lookup name with
  | some (.text s) => s
  | _ => ""

/-- The whole number in a column, zero if absent. -/
def word (cells : Cells) (name : String) : UInt64 :=
  match cells.lookup name with
  | some (.word n) => n
  | _ => 0

/-- The literal in a column, zero if absent. -/
def number (cells : Cells) (name : String) : Literal :=
  match cells.lookup name with
  | some (.number l) => l
  | _ => .finite false ⟨0, 0⟩

end Cells

namespace Schema

/-- The column with a name. -/
def column? (schema : Schema) (name : String) : Option Column :=
  schema.columns.find? (·.name = name)

/-- Collects the cells of a row from the left; `index` is that of the next field. -/
def collect (schema : Schema) (index : Nat) (found : Cells) :
    List (String × String) → Except RowFault Cells
  | [] => .ok found
  | (name, field) :: rest =>
    match schema.column? name with
    | none => schema.collect (index + 1) found rest
    | some column =>
      if (found.lookup name).isSome then .error (.duplicateColumn name)
      else
        match column.type.read field with
        | .error fault => .error (.cell index fault)
        | .ok cell => schema.collect (index + 1) ((name, cell) :: found) rest

/-- Refuses a row in which a required column was not found. -/
def requireColumns (schema : Schema) (found : Cells) : Except RowFault Cells :=
  match schema.columns.find? fun c => c.required && (found.lookup c.name).isNone with
  | some column => .error (.missingColumn column.name)
  | none => .ok found

/-- Reads the cells of a row under the names of the header. -/
def readNamed (schema : Schema) (names fields : List String) : Except RowFault Cells := do
  schema.requireColumns (← schema.collect 0 [] (names.zip fields))

/-- Reads the cells of a row by position; `index` is that of the next field. -/
def readPlaced (schema : Schema) (index : Nat) : List Column → List String → Except RowFault Cells
  | [], _ => .ok []
  | column :: columns, [] =>
    if column.required then .error (.tooShort index schema.label)
    else schema.readPlaced (index + 1) columns []
  | column :: columns, field :: fields =>
    match column.type.read field with
    | .error fault => .error (.cell index fault)
    | .ok cell => do
      let cells ← schema.readPlaced (index + 1) columns fields
      return (column.name, cell) :: cells

/-- Reads the cells of a row: by name where the header is text, by position where it is not. -/
def readRow (schema : Schema) (names : Except Error (List String)) (fields : List String) :
    Except RowFault Cells :=
  match names with
  | .ok names => schema.readNamed names fields
  | .error _ => schema.readPlaced 0 schema.columns fields

/-- Reads all rows of a table, up to the first faulty one. -/
def readTable {α : Type} (schema : Schema) (ofCells : Cells → α) (bytes : Bytes) :
    Except Error (List α) :=
  let table := Table.ofBytes bytes
  let names := table.header.texts
  table.rows.mapM fun r => do
    let fields ← table.rowTexts r
    match schema.readRow names fields with
    | .ok cells => .ok (ofCells cells)
    | .error fault => .error (.row r.position fault)

end Schema

end WorkloadSynth.Csv
