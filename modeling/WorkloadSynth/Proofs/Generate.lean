import Mathlib
import WorkloadSynth.Generate
import WorkloadSynth.Proofs.Grid
import WorkloadSynth.Proofs.Stitch

/-!
# From units to traces

Inversion lemmas for the functions between a list of observations and a sink: what a grid, an
assembled trace, a built trace and the outcome of a unit can be, and which traces a run hands over.
Sinks are made explicit as `recorder`s, which keep every trace that they were asked to take,
whatever they answer.
-/

namespace WorkloadSynth

/-! ## §1 — grids -/

theorem minuteMs_toNat : minuteMs.toNat = 60000 := rfl

theorem dayMs_toNat : dayMs.toNat = 86400000 := rfl

/-- Durations do not wrap as long as they fit a word. -/
theorem Config.durationMs_toNat {config : Config} (h : config.traceDays * 86400000 < 2 ^ 64) :
    config.durationMs.toNat = config.traceDays * 86400000 := by
  have hdays : (UInt64.ofNat config.traceDays).toNat = config.traceDays :=
    UInt64.toNat_ofNat_of_lt' (by rw [UInt64.size]; omega)
  unfold durationMs
  rw [UInt64.toNat_mul, hdays, dayMs_toNat]
  exact Nat.mod_eq_of_lt h

theorem gridSize_durationMs {config : Config} (h : config.traceDays * 86400000 < 2 ^ 64) :
    gridSize config.durationMs minuteMs = config.traceDays * minutesPerDay := by
  unfold gridSize
  rw [Config.durationMs_toNat h, minuteMs_toNat, show minutesPerDay = 1440 from rfl]
  omega

theorem minutes_fit {days : Nat} (h : days * 86400000 < 2 ^ 64) :
    days * minutesPerDay * 60000 < 2 ^ 64 := by
  rw [Nat.mul_assoc, show minutesPerDay * 60000 = 86400000 from rfl]
  exact h

/-- The timestamps of a grid of minutes. -/
def minuteGrid (n : Nat) : List UInt64 :=
  (List.range n).map fun i => UInt64.ofNat (i + 1) * minuteMs

theorem grid_minuteMs (duration : UInt64) :
    grid duration minuteMs = .ok (minuteGrid (gridSize duration minuteMs)) := rfl

@[simp]
theorem minuteGrid_length (n : Nat) : (minuteGrid n).length = n := by
  unfold minuteGrid
  rw [List.length_map, List.length_range]

/-- Timestamps are the ends of their minutes. -/
theorem toNat_of_minuteGrid_getElem? {n k : Nat} {time : UInt64} (hn : n * 60000 < 2 ^ 64)
    (h : (minuteGrid n)[k]? = some time) : time.toNat = 60000 * (k + 1) := by
  have hwords : (minuteGrid n).map UInt64.toNat = multiples 60000 n :=
    map_toNat_wordMultiples hn (by decide)
  have htime : ((minuteGrid n).map UInt64.toNat)[k]? = some time.toNat := by
    rw [List.getElem?_map, h]
    rfl
  rw [hwords] at htime
  exact (multiples_getElem?_eq_some_iff.mp htime).2.symm

/-! ## §2 — assembly -/

/-- The rows of columns on a grid. -/
def rowsOf (times : List UInt64) (c : Columns) (provisioning : Provisioning) : Trace :=
  (times.zip (c.invocations.zip (c.execTimes.zip c.memories))).map fun (time, i, e, m) =>
    sampleRow provisioning time i e m

theorem checkColumn_ok {function : String} {n : Nat} {column : ColumnName} {values : List Float}
    (h : values.length = n) : checkColumn function n column values = .ok () := if_pos h

theorem checkColumn_ne {function : String} {n : Nat} {column : ColumnName} {values : List Float}
    (h : values.length ≠ n) :
    checkColumn function n column values =
      .error (.schemaMismatch function column n values.length) :=
  if_neg h

theorem assemble_of_length {function : String} {times : List UInt64} {c : Columns}
    (h : c.OfLength times.length) (provisioning : Provisioning) :
    assemble function times c provisioning = .ok (rowsOf times c provisioning) := by
  unfold assemble
  rw [checkColumn_ok h.invocations, checkColumn_ok h.execTimes, checkColumn_ok h.memories]
  rfl

/-- The first column that does not have `n` values, as an error. -/
def Columns.misfit (c : Columns) (function : String) (n : Nat) : Error :=
  if c.invocations.length ≠ n then .schemaMismatch function .invocations n c.invocations.length
  else if c.execTimes.length ≠ n then .schemaMismatch function .execTimes n c.execTimes.length
  else .schemaMismatch function .memories n c.memories.length

/-- Only columns of the length of the grid are assembled; the error names the first other one. -/
theorem assemble_of_not_length {function : String} {times : List UInt64} {c : Columns}
    (h : ¬ c.OfLength times.length) (provisioning : Provisioning) :
    assemble function times c provisioning = .error (c.misfit function times.length) := by
  unfold assemble Columns.misfit
  -- the columns are checked in order, and the first misfit is reported
  by_cases hi : c.invocations.length = times.length
  · by_cases he : c.execTimes.length = times.length
    · have hm : c.memories.length ≠ times.length := fun hm => h ⟨hi, he, hm⟩
      rw [checkColumn_ok hi, checkColumn_ok he, checkColumn_ne hm, if_neg (not_not_intro hi),
        if_neg (not_not_intro he)]
      rfl
    · rw [checkColumn_ok hi, checkColumn_ne he, if_neg (not_not_intro hi), if_pos he]
      rfl
  · rw [checkColumn_ne hi, if_pos hi]
    rfl

theorem rowsOf_length {times : List UInt64} {c : Columns} (h : c.OfLength times.length)
    (provisioning : Provisioning) : (rowsOf times c provisioning).length = times.length := by
  unfold rowsOf
  rw [List.length_map, List.length_zip, List.length_zip, List.length_zip, h.invocations,
    h.execTimes, h.memories]
  simp only [Nat.min_self]

/-- A row is made from one timestamp and one value of each column. -/
theorem exists_of_rowsOf_getElem? {times : List UInt64} {c : Columns} {provisioning : Provisioning}
    {k : Nat} {row : Sample} (h : (rowsOf times c provisioning)[k]? = some row) :
    ∃ time i e m, times[k]? = some time ∧ c.invocations[k]? = some i ∧ c.execTimes[k]? = some e ∧
      c.memories[k]? = some m ∧ row = sampleRow provisioning time i e m := by
  unfold rowsOf at h
  rw [List.getElem?_map] at h
  obtain ⟨⟨time, i, e, m⟩, hk, rfl⟩ := Option.map_eq_some_iff.mp h
  rw [List.getElem?_zip_eq_some, List.getElem?_zip_eq_some, List.getElem?_zip_eq_some] at hk
  obtain ⟨ht, hi, he, hm⟩ := hk
  exact ⟨time, i, e, m, ht, hi, he, hm, rfl⟩

/-! ## §3 — one trace -/

section Build

variable {σ : Type} [RandomSource σ] (apps : AppTable) (provisioning : Provisioning)
  (duration : UInt64) (unit : TraceUnit) (s : σ)

/-- The trace of a unit whose observed days are all stitchable. -/
def builtTrace : GeneratedTrace :=
  let stitched : Stitched := ⟨segmentsFrom apps unit.slots s⟩
  { name := unit.name
    app := TraceUnit.app? unit.slots
    trace := rowsOf (minuteGrid (gridSize duration minuteMs)) stitched.columns provisioning
    contributingDays := stitched.contributingDays
    fitFailures := stitched.fitFailures
    missingDays := stitched.missingDays }

/-- **One unit.** If its slots cover the grid there is a trace, unless an observed day is refused;
the source moves on in either case. -/
theorem buildTrace_cases (hsize : unit.slots.length * minutesPerDay = gridSize duration minuteMs) :
    ((∀ o, some o ∈ unit.slots → o.Stitchable apps) ∧
        buildTrace apps provisioning duration unit s =
          (.ok (builtTrace apps provisioning duration unit s),
            stateBefore apps unit.slots s unit.slots.length)) ∨
      ∃ d e, FirstRefusal apps unit.slots d e ∧
        buildTrace apps provisioning duration unit s =
          (.error e, stateBefore apps unit.slots s (d + 1)) := by
  unfold buildTrace
  rw [grid_minuteMs]
  rcases stitch_cases apps unit.slots s with ⟨hall, hst⟩ | ⟨d, e, hfirst, hst⟩
  · left
    refine ⟨hall, ?_⟩
    -- the slots cover the grid, so all columns fit it
    have hlen : (Stitched.mk (segmentsFrom apps unit.slots s)).columns.OfLength
        (minuteGrid (gridSize duration minuteMs)).length := by
      rw [minuteGrid_length, ← hsize]
      exact (Stitched.ofDays_segmentsFrom hall s).length
    simp only [hst, assemble_of_length hlen]
    rfl
  · right
    refine ⟨d, e, hfirst, ?_⟩
    simp only [hst]

end Build

/-! ## §4 — one unit of a run -/

namespace TraceUnit

@[simp]
theorem arrange_length (observations : List Observation) (days : Nat) :
    (arrange observations days).length = days := by
  unfold arrange
  rw [List.length_map, List.length_range]

end TraceUnit

/-- The units of a run. -/
def Config.units (config : Config) (observations : List Observation) : List TraceUnit :=
  TraceUnit.ofObservations config.mode config.days observations

/-- Does a unit have a slot for every day of the traces of a run? -/
def TraceUnit.Covers (unit : TraceUnit) (config : Config) : Prop :=
  unit.slots.length = config.traceDays

/-- In both modes there is a slot for every day. -/
theorem Config.covers_of_mem_units {config : Config} {observations : List Observation}
    {unit : TraceUnit} (h : unit ∈ config.units observations) : unit.Covers config := by
  unfold units TraceUnit.ofObservations at h
  unfold TraceUnit.Covers traceDays
  cases hmode : config.mode with
  | daily =>
    rw [hmode] at h
    obtain ⟨o, -, rfl⟩ := List.mem_map.mp h
    rfl
  | continuous =>
    rw [hmode] at h
    obtain ⟨group, -, rfl⟩ := List.mem_map.mp h
    exact TraceUnit.arrange_length group.2 config.days

/-- Nothing but observations ends up in slots. -/
theorem TraceUnit.mem_of_mem_slots {config : Config} {observations : List Observation}
    {unit : TraceUnit} (h : unit ∈ config.units observations) {o : Observation}
    (ho : some o ∈ unit.slots) : o ∈ observations := by
  unfold Config.units ofObservations at h
  cases hmode : config.mode with
  | daily =>
    rw [hmode] at h
    obtain ⟨o', ho', rfl⟩ := List.mem_map.mp h
    obtain rfl : o = o' := Option.some.inj (List.mem_singleton.mp ho)
    exact ho'
  | continuous =>
    rw [hmode] at h
    obtain ⟨group, hgroup, rfl⟩ := List.mem_map.mp h
    -- a slot has the first observation of its day in the group
    obtain ⟨k, -, hk⟩ := List.mem_map.mp ho
    obtain ⟨function, -, rfl⟩ := List.mem_map.mp hgroup
    exact (List.mem_filter.mp (List.mem_of_find?_eq_some hk)).1

section Step

variable {σ : Type} [RandomSource σ] (apps : AppTable) (config : Config) (unit : TraceUnit)
  (p : Progress σ)

/-- The trace of a unit in a run. -/
def unitTrace : GeneratedTrace :=
  builtTrace apps config.provisioning config.durationMs unit p.source

/-- The state behind a unit whose days are all stitchable. -/
def unitSource : σ := stateBefore apps unit.slots p.source unit.slots.length

/-- Is a trace kept although some of its days have no fit? -/
def GeneratedTrace.Kept (t : GeneratedTrace) (config : Config) : Prop :=
  t.fitFailures = 0 ∨ config.mode = .continuous

/-- What can become of a unit, and why. -/
inductive UnitResult : UnitOutcome σ → Prop where
  /-- All observed days are stitchable and the trace is kept. -/
  | built (h : ∀ o, some o ∈ unit.slots → o.Stitchable apps)
      (hkept : (unitTrace apps config unit p).Kept config) :
      UnitResult (.emit (unitTrace apps config unit p)
        (p.countBuilt (unitSource apps unit p) (unitTrace apps config unit p)))
  /-- All observed days are stitchable, but the trace is not kept. -/
  | dropped (h : ∀ o, some o ∈ unit.slots → o.Stitchable apps)
      (hkept : ¬ (unitTrace apps config unit p).Kept config) :
      UnitResult (.skip
        (p.countDropped (unitSource apps unit p) (unitTrace apps config unit p)))
  /-- The first day that is refused is the day of a timer that misses minutes. -/
  | mismatch (d : Nat) (o : Observation) (h : unit.slots[d]? = some (some o))
      (ht : o.trigger = .timer) (hl : o.invocations.length ≠ minutesPerDay) :
      UnitResult (.skip (p.countMismatch (stateBefore apps unit.slots p.source (d + 1))))
  /-- The first day that is refused belongs to an application without a number of functions. -/
  | unknown (d : Nat) (o : Observation) (h : unit.slots[d]? = some (some o))
      (hk : ¬ apps.Knows o.app) :
      UnitResult (.fail (.missingLookup o.app)
        { p with source := stateBefore apps unit.slots p.source (d + 1) })

theorem not_kept_iff (t : GeneratedTrace) :
    (0 < t.fitFailures && !config.mode.keepsFallbackDays) = true ↔ ¬ t.Kept config := by
  unfold GeneratedTrace.Kept TraceMode.keepsFallbackDays
  rw [Bool.and_eq_true, decide_eq_true_iff, Bool.not_eq_true', decide_eq_false_iff_not, not_or,
    Nat.pos_iff_ne_zero]

/-- **One unit of a run.** -/
theorem unitResult_processUnit {config : Config} {unit : TraceUnit} (hcovers : unit.Covers config)
    (hfits : config.traceDays * 86400000 < 2 ^ 64) :
    UnitResult apps config unit p (processUnit apps config unit p) := by
  have hsize : unit.slots.length * minutesPerDay = gridSize config.durationMs minuteMs := by
    rw [gridSize_durationMs hfits, hcovers]
  unfold processUnit
  rcases buildTrace_cases apps config.provisioning config.durationMs unit p.source hsize with
    ⟨hall, hb⟩ | ⟨d, e, hfirst, hb⟩
  · rw [hb]
    have hiff := not_kept_iff config (unitTrace apps config unit p)
    unfold unitTrace at hiff
    dsimp only
    by_cases hkept : (unitTrace apps config unit p).Kept config
    · rw [if_neg (mt hiff.mp (not_not_intro hkept))]
      exact .built hall hkept
    · rw [if_pos (hiff.mpr hkept)]
      exact .dropped hall hkept
  · obtain ⟨o, ho, hr⟩ := hfirst.refused
    rw [hb]
    cases hr with
    | unknown hk => exact .unknown d o ho hk
    | minutes hk ht hl => exact .mismatch d o ho ht hl

end Step

/-! ## §5 — a whole run -/

/-- A sink that keeps what it was asked to take.  Its answer may depend on all of it. -/
def recorder (answer : List GeneratedTrace → GeneratedTrace → Except Error Unit)
    (t : GeneratedTrace) : StateM (List GeneratedTrace) (Except Error Unit) := do
  let log ← get
  set (log ++ [t])
  return answer log t

section Run

variable {σ : Type} [RandomSource σ] (apps : AppTable) (config : Config)
  (answer : List GeneratedTrace → GeneratedTrace → Except Error Unit)

/-- The result of a run over some units, how far it came, and the traces handed over. -/
def recordedRun (units : List TraceUnit) (p : Progress σ) (log : List GeneratedTrace) :
    (Except Error Unit × Progress σ) × List GeneratedTrace :=
  (generateUnits apps config (recorder answer) units p).run log

variable {apps config} {unit : TraceUnit} {p p' : Progress σ}

theorem recordedRun_of_fail {e : Error} (h : processUnit apps config unit p = .fail e p')
    (units : List TraceUnit) (log : List GeneratedTrace) :
    recordedRun apps config answer (unit :: units) p log = ((.error e, p'), log) := by
  unfold recordedRun generateUnits
  rw [h]
  rfl

theorem recordedRun_of_skip (h : processUnit apps config unit p = .skip p')
    (units : List TraceUnit) (log : List GeneratedTrace) :
    recordedRun apps config answer (unit :: units) p log =
      recordedRun apps config answer units p' log := by
  unfold recordedRun
  rw [generateUnits, h]

/-- A trace is handed over before the sink answers. -/
theorem recordedRun_of_emit {t : GeneratedTrace} (h : processUnit apps config unit p = .emit t p')
    (units : List TraceUnit) (log : List GeneratedTrace) :
    recordedRun apps config answer (unit :: units) p log =
      match answer log t with
      | .error e => ((.error e, p'), log ++ [t])
      | .ok () => recordedRun apps config answer units (p'.listWritten t) (log ++ [t]) := by
  unfold recordedRun
  rw [generateUnits, h]
  -- the recorder takes note of the trace and answers then
  show StateT.run (bind (recorder answer t) _) log = _
  rw [StateT.run_bind]
  show StateT.run (match answer log t with | .error e => _ | .ok () => _) (log ++ [t]) = _
  cases answer log t with
  | error e => rfl
  | ok u => rfl

/-- **What every step of a run keeps, the run keeps.** -/
theorem recordedRun_invariant (Inv : Progress σ → List GeneratedTrace → Prop)
    {units : List TraceUnit}
    (hfail : ∀ unit ∈ units, ∀ p log e p', Inv p log →
      processUnit apps config unit p = .fail e p' → Inv p' log)
    (hskip : ∀ unit ∈ units, ∀ p log p', Inv p log →
      processUnit apps config unit p = .skip p' → Inv p' log)
    (hemit : ∀ unit ∈ units, ∀ p log t p', Inv p log →
      processUnit apps config unit p = .emit t p' →
        Inv p' (log ++ [t]) ∧ Inv (p'.listWritten t) (log ++ [t]))
    {p : Progress σ} {log : List GeneratedTrace} (h : Inv p log) :
    Inv (recordedRun apps config answer units p log).1.2
      (recordedRun apps config answer units p log).2 := by
  induction units generalizing p log with
  | nil => exact h
  | cons unit units ih =>
    -- induction on the units; the progress and the log are those in front of the first
    have ih' := @ih (fun u hu => hfail u (List.mem_cons_of_mem _ hu))
      (fun u hu => hskip u (List.mem_cons_of_mem _ hu))
      (fun u hu => hemit u (List.mem_cons_of_mem _ hu))
    cases hout : processUnit apps config unit p with
    | fail e p' =>
      rw [recordedRun_of_fail answer hout]
      exact hfail unit List.mem_cons_self p log e p' h hout
    | skip p' =>
      rw [recordedRun_of_skip answer hout]
      exact ih' (hskip unit List.mem_cons_self p log p' h hout)
    | emit t p' =>
      rw [recordedRun_of_emit answer hout]
      obtain ⟨hrefused, htaken⟩ := hemit unit List.mem_cons_self p log t p' h hout
      cases answer log t with
      | error e => exact hrefused
      | ok u => exact ih' htaken

end Run

/-! ## §6 — sinks that take everything -/

/-- A sink that takes every trace. -/
def takeAll : List GeneratedTrace → GeneratedTrace → Except Error Unit := fun _ _ => .ok ()

section HandedOver

variable {σ : Type} [RandomSource σ] (apps : AppTable) (config : Config)

/-- The traces handed over to a sink that takes them all, each with its unit. -/
def handedOver : List TraceUnit → Progress σ → List (TraceUnit × GeneratedTrace)
  | [], _ => []
  | unit :: units, p =>
    match processUnit apps config unit p with
    | .fail _ _ => []
    | .skip p' => handedOver units p'
    | .emit t p' => (unit, t) :: handedOver units (p'.listWritten t)

theorem recordedRun_takeAll (units : List TraceUnit) (p : Progress σ)
    (log : List GeneratedTrace) :
    (recordedRun apps config takeAll units p log).2 =
      log ++ (handedOver apps config units p).map (·.2) := by
  induction units generalizing p log with
  | nil => exact (List.append_nil log).symm
  | cons unit units ih =>
    unfold handedOver
    cases hout : processUnit apps config unit p with
    | fail e p' =>
      rw [recordedRun_of_fail takeAll hout]
      exact (List.append_nil log).symm
    | skip p' =>
      rw [recordedRun_of_skip takeAll hout]
      exact ih p' log
    | emit t p' =>
      rw [recordedRun_of_emit takeAll hout]
      dsimp only [takeAll]
      have hrest := ih (p'.listWritten t) (log ++ [t])
      rw [List.append_assoc] at hrest
      exact hrest

end HandedOver

/-! ## §7 — idle functions and timers -/

/-- An observation of a function that was not invoked. -/
def idleObservation : Observation where
  owner := "o"
  app := "a"
  function := "f"
  trigger := .http
  invocations := List.replicate minutesPerDay 0
  duration := ⟨0.0, 0.0, 0.0, 0.0, 0.0, 0.0, 0.0, 0.0, 0.0, 0.0, 0.0⟩
  memory := ⟨0.0, 0.0, 0.0, 0.0, 0.0, 0.0, 0.0, 0.0, 0.0, 0.0⟩
  day := 1
  id := "f"

/-- Another function of the same application. -/
def otherObservation : Observation := { idleObservation with function := "g", id := "g" }

/-- A timer that goes off once a minute. -/
def timerObservation : Observation :=
  { idleObservation with trigger := .timer, invocations := List.replicate minutesPerDay 1 }

/-- Another timer of the same application. -/
def otherTimer : Observation := { timerObservation with function := "g", id := "g" }

/-- The day of a timer that was observed for no minute. -/
def shortTimer : Observation := { idleObservation with trigger := .timer, invocations := [] }

/-- The invocations and the memory in the first row of a trace. -/
def GeneratedTrace.firstRow? (t : GeneratedTrace) : Option (UInt64 × Float) :=
  t.trace.head?.map fun row => (row.invocations, row.memUsed)

/-- A configuration for traces of one day. -/
def oneDayConfig : Config := { Config.standard with days := 1 }

/-- The application of `idleObservation`. -/
def idleTable : AppTable := ⟨[⟨"a", 2, ⟨0⟩⟩]⟩

theorem idleTable_knows : idleTable.Knows "a" := ⟨_, rfl, by decide⟩

end WorkloadSynth
