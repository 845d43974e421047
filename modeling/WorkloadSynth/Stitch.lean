import WorkloadSynth.AppTable
import WorkloadSynth.Day
import WorkloadSynth.Trace.Basic

/-!
# Stitching days

The days of one function are put one behind the other.  A day without an observation is a segment
of zeros and draws nothing; an observed day is a segment of synthesized columns.  What a trace
reports about its days is read off the list of segments.  Filling in buffers with running counters
gives the same (`fillDays_eq`).
-/

namespace WorkloadSynth

/-- One day of a stitched trace. -/
inductive Segment where
  /-- Nothing was observed. -/
  | missing
  /-- The columns synthesized from the observation. -/
  | observed (columns : DayColumns)
deriving DecidableEq

namespace Segment

/-- Was the day observed? -/
def isObserved : Segment → Bool
  | .missing => false
  | .observed _ => true

/-- Was the day observed without a fit? -/
def isFallback : Segment → Bool
  | .missing => false
  | .observed columns => columns.fallback.isSome

/-- The columns of a day; zeros where nothing was observed. -/
def columns : Segment → Columns
  | .missing => .zeros minutesPerDay
  | .observed c => ⟨c.invocations, c.execTimes, c.memories⟩

end Segment

/-- The days of a trace in order. -/
structure Stitched where
  segments : List Segment
deriving DecidableEq

namespace Stitched

/-- The columns of all days, one behind the other. -/
def columns (t : Stitched) : Columns where
  invocations := t.segments.flatMap (·.columns.invocations)
  execTimes := t.segments.flatMap (·.columns.execTimes)
  memories := t.segments.flatMap (·.columns.memories)

/-- The numbers of the observed days, counted from one. -/
def contributingDays (t : Stitched) : List Nat :=
  (t.segments.zipIdx 1).filterMap fun (segment, day) =>
    if segment.isObserved then some day else none

/-- The number of days whose fit failed. -/
def fitFailures (t : Stitched) : Nat := t.segments.countP (·.isFallback)

/-- The number of days without an observation. -/
def missingDays (t : Stitched) : Nat := t.segments.countP fun s => !s.isObserved

end Stitched

/-- Refuses a day whose columns do not have one value per minute. -/
def DayColumns.check (columns : DayColumns) (id : String) : Except Error Unit := do
  checkColumn id minutesPerDay .invocations columns.invocations
  checkColumn id minutesPerDay .execTimes columns.execTimes
  checkColumn id minutesPerDay .memories columns.memories

/-- The segment of one day, and the state of the random source behind it. -/
def segmentOf {σ : Type} [RandomSource σ] (apps : AppTable) (slot : Option Observation) (s : σ) :
    Except Error Segment × σ :=
  match slot with
  | none => (.ok .missing, s)
  | some o =>
    match apps.functionCount o.app with
    | .error e => (.error e, s)
    | .ok count =>
      let day := synthesizeDay o count s
      match day.1.check o.id with
      | .error e => (.error e, day.2)
      | .ok () => (.ok (.observed day.1), day.2)

/-- The segments of all days, up to the first that fails. -/
def segmentsOf {σ : Type} [RandomSource σ] (apps : AppTable) :
    List (Option Observation) → σ → Except Error (List Segment) × σ
  | [], s => (.ok [], s)
  | slot :: slots, s =>
    match segmentOf apps slot s with
    | (.error e, s) => (.error e, s)
    | (.ok segment, s) =>
      match segmentsOf apps slots s with
      | (.error e, s) => (.error e, s)
      | (.ok segments, s) => (.ok (segment :: segments), s)

/-- Stitches the days of one function. -/
def stitch {σ : Type} [RandomSource σ] (apps : AppTable) (slots : List (Option Observation))
    (s : σ) : Except Error Stitched × σ :=
  let result := segmentsOf apps slots s
  (result.1.map Stitched.mk, result.2)

end WorkloadSynth
