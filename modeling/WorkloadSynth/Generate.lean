import WorkloadSynth.AuditIndex.Basic
import WorkloadSynth.Config.Basic
import WorkloadSynth.Report
import WorkloadSynth.Stitch

/-!
# Generating traces

The trace units of a shard are turned into traces one after the other.  A unit whose columns do not
fit the grid is passed over, and so is a daily unit whose fit failed; any other failure ends the
run.  Every finished trace goes to a sink and is then listed in the audit index under the
application of its first observed day.
-/

namespace WorkloadSynth

/-- A trace with what is known about its days. -/
structure GeneratedTrace where
  /-- The name of the trace file, also its identifier in the audit index. -/
  name : String
  /-- The application of the first observed day. -/
  app : Option String
  trace : Trace
  contributingDays : List Nat
  fitFailures : Nat
  missingDays : Nat
deriving DecidableEq

/-! ## One trace -/

/-- Builds a trace of the given duration on a one-minute grid; the slots have to cover exactly the
grid. -/
def buildTrace {σ : Type} [RandomSource σ] (apps : AppTable) (provisioning : Provisioning)
    (duration : UInt64) (unit : TraceUnit) (s : σ) : Except Error GeneratedTrace × σ :=
  match grid duration minuteMs with
  | .error e => (.error e, s)
  | .ok times =>
    match stitch apps unit.slots s with
    | (.error e, s) => (.error e, s)
    | (.ok stitched, s) =>
      match assemble unit.name times stitched.columns provisioning with
      | .error e => (.error e, s)
      | .ok trace =>
        (.ok {
          name := unit.name
          app := TraceUnit.app? unit.slots
          trace
          contributingDays := stitched.contributingDays
          fitFailures := stitched.fitFailures
          missingDays := stitched.missingDays }, s)

/-! ## All traces of a shard -/

/-- How far a run has come. -/
structure Progress (σ : Type) where
  report : Report
  source : σ
  index : AuditIndex

namespace Progress

variable {σ : Type}

/-- The run before its first unit. -/
def initial (source : σ) (index : AuditIndex) : Progress σ := ⟨.empty, source, index⟩

/-- Counts a unit that does not fit the grid. -/
def countMismatch (p : Progress σ) (source : σ) : Progress σ :=
  { p with
    source
    report := p.report + { Report.empty with functions := 1, schemaMismatches := 1 } }

/-- Counts a unit whose fit failed and that is not kept. -/
def countDropped (p : Progress σ) (source : σ) (t : GeneratedTrace) : Progress σ :=
  { p with
    source
    report := p.report + { Report.empty with functions := 1, fitFailures := t.fitFailures } }

/-- Counts a unit whose trace goes to the sink. -/
def countBuilt (p : Progress σ) (source : σ) (t : GeneratedTrace) : Progress σ :=
  { p with
    source
    report := p.report + { Report.empty with
      functions := 1
      fitFailures := t.fitFailures
      missingDays := t.missingDays } }

/-- Lists a trace that the sink took. -/
def listWritten (p : Progress σ) (t : GeneratedTrace) : Progress σ :=
  { p with
    report := p.report + { Report.empty with written := 1 }
    index :=
      if t.contributingDays.isEmpty then p.index
      else
        match t.app with
        | some app => p.index.add app t.name
        | none => p.index }

end Progress

/-- What becomes of one unit. -/
inductive UnitOutcome (σ : Type) where
  /-- The run ends. -/
  | fail (e : Error) (progress : Progress σ)
  /-- There is no trace, and the run goes on. -/
  | skip (progress : Progress σ)
  /-- There is a trace for the sink. -/
  | emit (trace : GeneratedTrace) (progress : Progress σ)

/-- Looks at one unit. -/
def processUnit {σ : Type} [RandomSource σ] (apps : AppTable) (config : Config) (unit : TraceUnit)
    (p : Progress σ) : UnitOutcome σ :=
  match buildTrace apps config.provisioning config.durationMs unit p.source with
  | (.error (.schemaMismatch ..), source) => .skip (p.countMismatch source)
  | (.error e, source) => .fail e { p with source }
  | (.ok t, source) =>
    if 0 < t.fitFailures && !config.mode.keepsFallbackDays then .skip (p.countDropped source t)
    else .emit t (p.countBuilt source t)

/-- Handles all units; the sink is asked to take each trace and may refuse. -/
def generateUnits {σ : Type} [RandomSource σ] {m : Type → Type} [Monad m] (apps : AppTable)
    (config : Config) (sink : GeneratedTrace → m (Except Error Unit)) :
    List TraceUnit → Progress σ → m (Except Error Unit × Progress σ)
  | [], p => pure (.ok (), p)
  | unit :: units, p =>
    match processUnit apps config unit p with
    | .fail e p => pure (.error e, p)
    | .skip p => generateUnits apps config sink units p
    | .emit t p => do
      match ← sink t with
      | .error e => pure (.error e, p)
      | .ok () => generateUnits apps config sink units (p.listWritten t)

/-- Generates the traces of a list of observations. -/
def generateTraces {σ : Type} [RandomSource σ] {m : Type → Type} [Monad m] (apps : AppTable)
    (config : Config) (sink : GeneratedTrace → m (Except Error Unit))
    (observations : List Observation) (source : σ) (index : AuditIndex) :
    m (Except Error Unit × Progress σ) :=
  generateUnits apps config sink (TraceUnit.ofObservations config.mode config.days observations)
    (.initial source index)

end WorkloadSynth
