import WorkloadSynth.Csv.Record
import WorkloadSynth.Text.Quoted

/-!
# Failures of trace synthesis

Everything that can end a run, or make it skip a function, with its wording.
-/

namespace WorkloadSynth

/-- The sampled columns of a trace. -/
inductive ColumnName where
  | invocations
  | execTimes
  | memories
deriving DecidableEq, Repr

/-- The name of a column in messages. -/
def ColumnName.text : ColumnName → String
  | .invocations => "invocations"
  | .execTimes => "exec_times"
  | .memories => "memories"

/-- Why a row of statistics, or the header of a trace, is malformed. -/
inductive FormatFault where
  | tooFewColumns (expected actual : Nat)
  | badNumber (column : Nat) (text : String)
  | notACount (column : Nat) (text : String)
  | dayZero
  | traceHeader (labels : List String)
deriving DecidableEq, Repr

/-- The wording of a malformed row. -/
def FormatFault.message : FormatFault → String
  | .tooFewColumns expected actual =>
    "expected at least " ++ toString expected ++ " columns, got " ++ toString actual
  | .badNumber column text => "column " ++ toString column ++ ": bad number " ++ quoted text
  | .notACount column text =>
    "column " ++ toString column ++ ": " ++ text ++ " is not a non-negative integer"
  | .dayZero => "days are numbered from 1"
  | .traceHeader labels =>
    "unexpected trace header StringRecord(" ++ quotedList labels ++ ")"

/-- Why a run, or one trace of it, fails. -/
inductive Error where
  /-- A column does not have the length of the timestamp grid. -/
  | schemaMismatch (function : String) (column : ColumnName) (expected actual : Nat)
  /-- An application has no usable function count. -/
  | missingLookup (app : String)
  /-- A worker ended without an answer. -/
  | workerFailure (shard : Nat)
  | malformedRow (line : Nat) (fault : FormatFault)
  | invalidConfig (reason : String)
  | file (cause : FileError)
  | csv (cause : Csv.Error)
  /-- The configuration is not a document of the expected shape. -/
  | yaml
deriving DecidableEq, Repr

/-- The wording of a failure. -/
def Error.message : Error → String
  | .schemaMismatch function column expected actual =>
    "function " ++ function ++ ": column " ++ column.text ++ " has " ++ toString actual ++
      " values, grid has " ++ toString expected
  | .missingLookup app => "application " ++ app ++ " has no function count in the application table"
  | .workerFailure shard => "worker for shard " ++ toString shard ++ " terminated abnormally"
  | .malformedRow line fault => "malformed row at line " ++ toString line ++ ": " ++ fault.message
  | .invalidConfig reason => "invalid config: " ++ reason
  | .file cause => cause.message
  | .csv cause => cause.message
  | .yaml => "the configuration cannot be read"

end WorkloadSynth
