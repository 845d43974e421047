import WorkloadSynth.Csv.Row
import WorkloadSynth.Csv.Writer
import WorkloadSynth.Error

/-!
# The application table

One record per application with its number of functions, by which the memory of the application is
shared out, and its popularity.  A later record of an application replaces an earlier one.
-/

namespace WorkloadSynth

/-! ## Popularity -/

/-- The summed daily invocation counts of an application.  It is kept by its bit pattern, which
also tells two unequal not-a-numbers apart. -/
structure Popularity where
  bits : UInt64
deriving DecidableEq, Repr

namespace Popularity

/-- The popularity as a number. -/
def value (p : Popularity) : Float := Float.ofBits p.bits

/-- The popularity that a literal denotes. -/
def ofLiteral (l : Literal) : Popularity := ⟨l.toBits⟩

/-- The popularity as a field of a table. -/
def toField (p : Popularity) : String := Csv.number p.value

end Popularity

/-! ## Records -/

/-- An application with its number of functions and its popularity. -/
structure AppRecord where
  app : String
  count : UInt64
  popularity : Popularity
deriving DecidableEq, Repr

/-- The columns of an application table. -/
def AppRecord.schema : Csv.Schema where
  columns := [⟨"HashApp", .text, true⟩, ⟨"Count", .word, true⟩, ⟨"popularity", .number, false⟩]
  label := "struct AppRecord with 3 elements"

/-- A record from the cells of a row. -/
def AppRecord.ofCells (cells : Csv.Cells) : AppRecord :=
  ⟨cells.text "HashApp", cells.word "Count", .ofLiteral (cells.number "popularity")⟩

/-! ## Table -/

/-- The records of all applications, in the order of the table. -/
structure AppTable where
  records : List AppRecord
deriving DecidableEq, Repr

namespace AppTable

/-- Reads the contents of a table file. -/
def ofBytes (bytes : Bytes) : Except Csv.Error AppTable :=
  (AppRecord.schema.readTable AppRecord.ofCells bytes).map AppTable.mk

/-- The last record of an application. -/
def get? (t : AppTable) (app : String) : Option AppRecord :=
  t.records.reverse.find? fun r => r.app = app

/-- The applications of the table, in order of their first records. -/
def apps (t : AppTable) : List String := (t.records.map (·.app)).eraseDups

/-- The number of functions of an application.  It has to be known and positive, otherwise the
inputs do not belong together. -/
def functionCount (t : AppTable) (app : String) : Except Error UInt64 :=
  match t.get? app with
  | some r => if r.count = 0 then .error (.missingLookup app) else .ok r.count
  | none => .error (.missingLookup app)

/-- Checks that all applications have a usable number of functions. -/
def checkApps (t : AppTable) : List String → Except Error Unit
  | [] => .ok ()
  | app :: rest =>
    match t.functionCount app with
    | .ok _ => t.checkApps rest
    | .error e => .error e

/-- The records with a popularity between two bounds, in table order. -/
def popularityBand (t : AppTable) (low high : Float) : List AppRecord :=
  t.records.filter fun r => low ≤ r.popularity.value && r.popularity.value ≤ high

end AppTable

end WorkloadSynth
