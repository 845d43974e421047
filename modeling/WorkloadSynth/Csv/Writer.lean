import WorkloadSynth.Csv.Reader
import WorkloadSynth.Number.Style

/-!
# Writing records

Records end with a line feed.  A field is quoted only when it holds a comma, a quote or an end of
line, and quotes inside it are doubled.
-/

namespace WorkloadSynth.Csv

/-- A byte that makes a field be quoted. -/
def needsQuotes (b : UInt8) : Bool := b == comma || b == quote || endsRecord b

/-- Doubles the quotes of a field. -/
def doubleQuotes (field : Bytes) : Bytes :=
  field.flatMap fun b => if b = quote then [quote, quote] else [b]

/-- One field of a record. -/
def writeField (field : Bytes) : Bytes :=
  if field.any needsQuotes then quote :: (doubleQuotes field ++ [quote]) else field

/-- The fields of a record with commas between them. -/
def joinFields : List Bytes → Bytes
  | [] => []
  | [field] => writeField field
  | field :: rest => writeField field ++ comma :: joinFields rest

/-- A record with its line feed. -/
def writeRecord (fields : List Bytes) : Bytes := joinFields fields ++ [lineFeed]

/-- A file of records, given as texts. -/
def write (records : List (List String)) : Bytes :=
  records.flatMap fun fields => writeRecord (fields.map Utf8.encode)

/-- Doubles in table files are written positionally from `0.00001` up to sixteen digits, with `.0`
behind a whole number, and with an exponent outside that range. -/
def numberStyle : Style where
  tie := .toEven
  positional top := -5 < top && top ≤ 16
  wholePoint := true

/-- A double as a field. -/
def number (x : Float) : String := Double.write numberStyle x

end WorkloadSynth.Csv
