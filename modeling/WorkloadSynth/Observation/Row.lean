import WorkloadSynth.Csv.Reader
import WorkloadSynth.Error
import WorkloadSynth.Observation.Basic
import WorkloadSynth.Text.Blank

/-!
# Observations from rows of statistics

A row has a fixed layout of 1465 columns: four names, an invocation count for every minute, eleven
duration statistics and ten memory statistics.  Behind them the header may announce the day and the
identifier of the observation.  Blank statistics are not known; blank counts are not allowed.
-/

namespace WorkloadSynth

namespace Layout

/-- The first column of invocation counts. -/
def counts : Nat := 4

/-- The first duration statistic; average, count, minimum and maximum come before the
percentiles. -/
def duration : Nat := counts + minutesPerDay

/-- The first memory statistic; sample count and average come before the percentiles. -/
def memory : Nat := duration + 11

/-- The number of columns of the fixed layout. -/
def width : Nat := memory + 10

end Layout

/-- Where the columns behind the fixed layout are. -/
structure TrailingColumns where
  day : Option Nat
  id : Option Nat
deriving DecidableEq, Repr

/-- The position of the first column behind the fixed layout with a name. -/
def trailingColumn (header : List String) (name : String) : Option Nat :=
  ((header.drop Layout.width).findIdx? (· = name)).map (· + Layout.width)

/-- Finds the trailing columns by their names. -/
def TrailingColumns.ofHeader (header : List String) : TrailingColumns :=
  ⟨trailingColumn header "Day", trailingColumn header "id"⟩

namespace Observation

/-! ## Fields -/

/-- The text of a column, empty behind the end of the row. -/
def field (fields : Array String) (column : Nat) : String := fields.getD column ""

/-- Reads a statistic; a blank field is a NaN. -/
def readStat (fields : Array String) (column : Nat) : Except FormatFault Float :=
  let text := trim (field fields column).toList
  if text.isEmpty then .ok (0.0 / 0.0)
  else
    match Literal.read text with
    | .ok l => .ok l.toFloat
    | .error _ => .error (.badNumber column (String.ofList text))

/-- Reads a count: a whole number that is not negative, in any spelling. -/
def readCount (fields : Array String) (column : Nat) : Except FormatFault UInt64 := do
  let value ← readStat fields column
  if 0.0 ≤ value ∧ Double.isWhole value then return value.toUInt64
  else throw (.notACount column (field fields column))

/-! ## Rows -/

/-- Reads the day of a row, one if no column announces it. -/
def readDay (fields : Array String) : Option Nat → Except FormatFault Nat
  | none => .ok 1
  | some column => do
    let day ← readCount fields column
    if day = 0 then throw .dayZero else return day.toNat

/-- Reads the percentiles of the duration and puts them behind the other statistics, which are read
last. -/
def ofFields (trailing : TrailingColumns) (fields : Array String) :
    Except FormatFault Observation := do
  if fields.size < Layout.width then throw (.tooFewColumns Layout.width fields.size)
  let stat := readStat fields
  let invocations ← (List.range minutesPerDay).mapM fun i => readCount fields (Layout.counts + i)
  let d0 ← stat (Layout.duration + 4)
  let d1 ← stat (Layout.duration + 5)
  let d25 ← stat (Layout.duration + 6)
  let d50 ← stat (Layout.duration + 7)
  let d75 ← stat (Layout.duration + 8)
  let d99 ← stat (Layout.duration + 9)
  let d100 ← stat (Layout.duration + 10)
  let m1 ← stat (Layout.memory + 2)
  let m5 ← stat (Layout.memory + 3)
  let m25 ← stat (Layout.memory + 4)
  let m50 ← stat (Layout.memory + 5)
  let m75 ← stat (Layout.memory + 6)
  let m95 ← stat (Layout.memory + 7)
  let m99 ← stat (Layout.memory + 8)
  let m100 ← stat (Layout.memory + 9)
  let day ← readDay fields trailing.day
  let durationAverage ← stat Layout.duration
  let durationCount ← stat (Layout.duration + 1)
  let durationMinimum ← stat (Layout.duration + 2)
  let durationMaximum ← stat (Layout.duration + 3)
  let memoryCount ← stat Layout.memory
  let memoryAverage ← stat (Layout.memory + 1)
  let function := field fields 2
  return {
    owner := field fields 0
    app := field fields 1
    function
    trigger := .ofName (field fields 3)
    invocations
    duration :=
      ⟨durationAverage, durationCount, durationMinimum, durationMaximum,
        d0, d1, d25, d50, d75, d99, d100⟩
    memory := ⟨memoryCount, memoryAverage, m1, m5, m25, m50, m75, m95, m99, m100⟩
    day
    id := (trailing.id.map (field fields)).getD function }

/-- Reads a row that began at the given line. -/
def ofRow (line : Nat) (trailing : TrailingColumns) (fields : List String) :
    Except Error Observation :=
  match ofFields trailing fields.toArray with
  | .ok o => .ok o
  | .error fault => .error (.malformedRow line fault)

/-- Reads all rows of a file of statistics, up to the first faulty one. -/
def readAll (bytes : Bytes) : Except Error (List Observation) :=
  let table := Csv.Table.ofBytes bytes
  match table.header.texts with
  | .error e => .error (.csv e)
  | .ok names =>
    let trailing := TrailingColumns.ofHeader names
    table.rows.mapM fun r =>
      match table.rowTexts r with
      | .error e => .error (.csv e)
      | .ok fields => ofRow r.position.line trailing fields

end Observation

end WorkloadSynth
