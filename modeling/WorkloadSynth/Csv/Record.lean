import WorkloadSynth.FileSystem.Error
import WorkloadSynth.Number.Literal
import WorkloadSynth.Text.Utf8

/-!
# Records of a table file and what can be wrong with them

A record is a list of fields with the position at which its reading began.  The header is record
zero.  All failures of table reading are listed here with their wording.
-/

namespace WorkloadSynth.Csv

/-- Where a reader stands: how many records lie behind it, the line counted from one, and the
offset in bytes. -/
structure Position where
  record : Nat
  line : Nat
  byte : Nat
deriving DecidableEq, Repr

/-- The position before the first byte. -/
def Position.start : Position := ⟨0, 1, 0⟩

/-- The fields of one record, as bytes. -/
structure Record where
  position : Position
  fields : List Bytes
deriving DecidableEq, Repr

/-! ## Failures -/

/-- Why a field does not hold a value of its type. -/
inductive CellFault where
  | word (fault : WordFault)
  | number (fault : LiteralFault)
deriving DecidableEq, Repr

/-- Why a record is no row of a table. -/
inductive RowFault where
  /-- The field with this index does not hold a value of its type. -/
  | cell (index : Nat) (fault : CellFault)
  /-- A required column is missing. -/
  | missingColumn (name : String)
  /-- A column name stands twice in the header. -/
  | duplicateColumn (name : String)
  /-- Without a readable header, the record ends before a required field. -/
  | tooShort (length : Nat) (expected : String)
deriving DecidableEq, Repr

/-- Why a table file cannot be read or written. -/
inductive Error where
  | file (cause : FileError)
  | unequalLengths (position : Position) (expected actual : Nat)
  /-- A field is not text; `validLength` bytes of it are. -/
  | notText (position : Position) (field validLength : Nat)
  | row (position : Position) (fault : RowFault)
deriving DecidableEq, Repr

/-- The wording of a fault in a cell. -/
def CellFault.message : CellFault → String
  | .word .empty => "cannot parse integer from empty string"
  | .word .invalidDigit => "invalid digit found in string"
  | .word .overflow => "number too large to fit in target type"
  | .number .empty => "cannot parse float from empty string"
  | .number .invalid => "invalid float literal"

/-- The wording of a fault in a row. -/
def RowFault.message : RowFault → String
  | .cell index fault => "field " ++ toString index ++ ": " ++ fault.message
  | .missingColumn name => "missing field `" ++ name ++ "`"
  | .duplicateColumn name => "duplicate field `" ++ name ++ "`"
  | .tooShort length expected =>
    "invalid length " ++ toString length ++ ", expected " ++ expected

/-- A position in the middle of a message. -/
def Position.message (p : Position) : String :=
  "record " ++ toString p.record ++ " (line: " ++ toString p.line ++ ", byte: " ++
    toString p.byte ++ ")"

/-- The wording of a failure. -/
def Error.message : Error → String
  | .file cause => cause.message
  | .unequalLengths position expected actual =>
    "CSV error: " ++ position.message ++ ": found record with " ++ toString actual ++
      " fields, but the previous record has " ++ toString expected ++ " fields"
  | .notText p field validLength =>
    "CSV parse error: record " ++ toString p.record ++ " (line " ++ toString p.line ++
      ", field: " ++ toString field ++ ", byte: " ++ toString p.byte ++
      "): invalid utf-8: invalid UTF-8 in field " ++ toString field ++ " near byte index " ++
      toString validLength
  | .row position fault => "CSV deserialize error: " ++ position.message ++ ": " ++ fault.message

end WorkloadSynth.Csv
