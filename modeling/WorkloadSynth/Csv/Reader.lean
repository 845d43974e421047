import WorkloadSynth.Csv.Record

/-!
# Reading records

Fields are separated by commas and records end at a line feed or a carriage return; empty lines are
skipped, so the two together end one record.  A field that starts with a quote goes to the next
single quote, two quotes standing for one, and what follows the closing quote is taken as it is.
An unclosed quote runs to the end of the file.
-/

namespace WorkloadSynth.Csv

/-! ## Special bytes -/

/-- The byte between fields. -/
def comma : UInt8 := 0x2c

/-- The byte around quoted fields. -/
def quote : UInt8 := 0x22

/-- The line feed. -/
def lineFeed : UInt8 := 0x0a

/-- The carriage return. -/
def carriageReturn : UInt8 := 0x0d

/-- A byte that ends a record. -/
def endsRecord (b : UInt8) : Bool := b == lineFeed || b == carriageReturn

/-! ## Scanning -/

/-- What the next byte is looked at as. -/
inductive Mode where
  /-- Between records. -/
  | betweenRecords
  /-- At the first byte of a field. -/
  | fieldStart
  /-- Inside an unquoted stretch of a field. -/
  | unquoted
  /-- Inside quotes. -/
  | inQuotes
  /-- Behind a quote inside quotes. -/
  | afterQuote
deriving DecidableEq, Repr

/-- A scanner in the middle of a file. -/
structure Scan where
  mode : Mode
  /-- The bytes of the current field, last first. -/
  field : Bytes
  /-- The finished fields of the current record, last first. -/
  fields : List Bytes
  /-- Where the current record began. -/
  start : Position
  /-- The line and offset of the next byte. -/
  line : Nat
  byte : Nat
deriving DecidableEq, Repr

namespace Scan

/-- The scanner before the first byte; `skipped` bytes of a mark were dropped. -/
def initial (skipped : Nat) : Scan := ⟨.betweenRecords, [], [], .start, 1, skipped⟩

/-- Moves past a byte. -/
def pass (s : Scan) (b : UInt8) : Scan :=
  { s with line := if b = lineFeed then s.line + 1 else s.line, byte := s.byte + 1 }

/-- Adds a byte to the current field. -/
def push (s : Scan) (mode : Mode) (b : UInt8) : Scan := { s with mode, field := b :: s.field }

/-- Finishes the current field. -/
def endField (s : Scan) : Scan :=
  { s with mode := .fieldStart, field := [], fields := s.field.reverse :: s.fields }

/-- The record made of the finished fields. -/
def record (s : Scan) : Record := ⟨s.start, s.fields.reverse⟩

/-- Finishes the current record; the next one begins here. -/
def endRecord (s : Scan) : Record × Scan :=
  let s := s.endField
  (s.record,
    { s with mode := .betweenRecords, fields := [], start := ⟨s.start.record + 1, s.line, s.byte⟩ })

/-- Looks at a byte outside quotes. -/
def plainByte (s : Scan) (b : UInt8) : Option Record × Scan :=
  if b = comma then (none, (s.pass b).endField)
  else if endsRecord b then
    let (r, s) := (s.pass b).endRecord
    (some r, s)
  else (none, (s.pass b).push .unquoted b)

/-- Looks at the first byte of a field. -/
def firstByte (s : Scan) (b : UInt8) : Option Record × Scan :=
  if b = quote then (none, { s.pass b with mode := .inQuotes }) else s.plainByte b

/-- Looks at one byte, and yields the record that it ends. -/
def step (s : Scan) (b : UInt8) : Option Record × Scan :=
  match s.mode with
  | .betweenRecords => if endsRecord b then (none, s.pass b) else s.firstByte b
  | .fieldStart => s.firstByte b
  | .unquoted => s.plainByte b
  | .inQuotes =>
    if b = quote then (none, { s.pass b with mode := .afterQuote })
    else (none, (s.pass b).push .inQuotes b)
  | .afterQuote =>
    if b = quote then (none, (s.pass b).push .inQuotes b) else s.plainByte b

/-- The record that the end of the file ends. -/
def finish (s : Scan) : List Record :=
  match s.mode with
  | .betweenRecords => []
  | _ => [s.endRecord.1]

/-- All records of the bytes that follow. -/
def run (s : Scan) : Bytes → List Record
  | [] => s.finish
  | b :: rest =>
    match s.step b with
    | (none, s) => s.run rest
    | (some r, s) => r :: s.run rest

end Scan

/-- All records of a file.  A byte order mark at its start is dropped but counted. -/
def records : Bytes → List Record
  | 0xef :: 0xbb :: 0xbf :: rest => (Scan.initial 3).run rest
  | bytes => (Scan.initial 0).run bytes

/-! ## Tables -/

/-- A table file: its first record is the header. -/
structure Table where
  header : Record
  rows : List Record
deriving DecidableEq, Repr

/-- Reads a table; an empty file has a header without fields. -/
def Table.ofBytes (bytes : Bytes) : Table :=
  match records bytes with
  | [] => ⟨⟨.start, []⟩, []⟩
  | header :: rows => ⟨header, rows⟩

/-- The fields of a record as texts. -/
def Record.texts (r : Record) : Except Error (List String) :=
  r.fields.zipIdx.mapM fun (field, i) =>
    match Utf8.decode field with
    | some s => .ok s
    | none => .error (.notText r.position i (Utf8.validLength field))

/-- The fields of a row as texts; a row has as many fields as the header. -/
def Table.rowTexts (t : Table) (r : Record) : Except Error (List String) :=
  if r.fields.length = t.header.fields.length then r.texts
  else .error (.unequalLengths r.position t.header.fields.length r.fields.length)

end WorkloadSynth.Csv
