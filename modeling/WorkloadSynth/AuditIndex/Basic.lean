import WorkloadSynth.AppTable

/-!
# The audit index

The audit index of a shard lists, for every application of the table, the traces that it
contributed to the shard.
-/

namespace WorkloadSynth

/-- The traces of one application. -/
structure AuditEntry where
  record : AppRecord
  ids : List String
deriving DecidableEq, Repr

/-- One entry per application, in the order of the table. -/
structure AuditIndex where
  entries : List AuditEntry
deriving DecidableEq, Repr

namespace AuditIndex

/-- The index of a table before any trace: every application in order of its first record, with
the data of its last one. -/
def ofTable (t : AppTable) : AuditIndex :=
  ⟨t.apps.filterMap fun app => (t.get? app).map fun record => ⟨record, []⟩⟩

/-- Appends a trace to the entry of an application.  Unknown applications are passed over. -/
def add (index : AuditIndex) (app id : String) : AuditIndex :=
  ⟨index.entries.map fun e => if e.record.app = app then { e with ids := e.ids ++ [id] } else e⟩

/-- The traces of an application. -/
def ids (index : AuditIndex) (app : String) : List String :=
  match index.entries.find? fun e => e.record.app = app with
  | some e => e.ids
  | none => []

end AuditIndex

end WorkloadSynth
