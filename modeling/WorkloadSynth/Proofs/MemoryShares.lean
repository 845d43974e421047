import Mathlib
import WorkloadSynth.Proofs.Fates
import WorkloadSynth.Proofs.Floor
import WorkloadSynth.Proofs.TwoRuns

/-!
# Shares of the memory of an application

The memory of an application is shared out among its functions.  With a fit the drawn values are
floored and then divided, without one the reported average is divided and then floored;
`floorAtZero_div` says that the order does not matter, for NaN, negative and infinite averages too.
So a day with any number of functions is the day of an only function with its memory divided
(`synthesizeDay_eq_shared`), and runs with different numbers of functions differ in nothing else.
-/

namespace WorkloadSynth

/-! ## §1 — one day -/

/-- The columns of a day with their memory shared out among `n` functions. -/
def DayColumns.shared (c : DayColumns) (n : UInt64) : DayColumns :=
  { c with memories := c.memories.map (· / n.toFloat) }

section Day

variable {σ : Type} [RandomSource σ] (o : Observation) (s : σ)

/-- **The scaling law.** A day is the day of an only function with its memory shared out. -/
theorem synthesizeDay_eq_shared {n : UInt64} (hn : n ≠ 0) :
    synthesizeDay o n s = ((synthesizeDay o 1 s).1.shared n, (synthesizeDay o 1 s).2) := by
  cases h : o.fittedSources with
  | error e =>
    -- the average is floored after it is divided, here by one
    have hone : floorAtZero (o.memory.average / (1 : UInt64).toFloat) =
        floorAtZero o.memory.average := by
      rw [floorAtZero_div _ (by decide), Double.div_one (nonNeg_floorAtZero _)]
    rw [synthesizeDay_of_fallback o n s h, synthesizeDay_of_fallback o 1 s h, hone]
    simp only [DayColumns.shared, List.map_replicate, floorAtZero_div _ hn]
  | ok sources =>
    obtain ⟨exec, memory⟩ := sources
    rw [synthesizeDay_of_fitted o n s h, synthesizeDay_of_fitted o 1 s h]
    simp only [DayColumns.shared, List.map_map, Prod.mk.injEq, DayColumns.mk.injEq, true_and,
      and_true]
    apply List.map_congr_left
    intro x hx
    rw [Function.comp_apply, Double.div_one (ColumnSource.nonNeg_of_mem_generate hx)]

end Day

/-! ## §2 — everything but the memory -/

/-- Columns without their memory. -/
def DayColumns.memoryless (c : DayColumns) : DayColumns :=
  { c with memories := c.memories.map fun _ => 0.0 }

/-- Columns without their memory. -/
def Columns.memoryless (c : Columns) : Columns :=
  { c with memories := c.memories.map fun _ => 0.0 }

/-- A segment without its memory. -/
def Segment.memoryless : Segment → Segment
  | .missing => .missing
  | .observed c => .observed c.memoryless

/-- Stitched days without their memory. -/
def Stitched.memoryless (t : Stitched) : Stitched := ⟨t.segments.map (·.memoryless)⟩

/-- A row without its memory. -/
def Sample.memoryless (row : Sample) : Sample := { row with memUsed := 0.0 }

/-- A trace without its memory. -/
def GeneratedTrace.memoryless (t : GeneratedTrace) : GeneratedTrace :=
  { t with trace := t.trace.map (·.memoryless) }

@[simp]
theorem DayColumns.memoryless_shared (c : DayColumns) (n : UInt64) :
    (c.shared n).memoryless = c.memoryless := by
  simp only [shared, memoryless, List.map_map]
  rfl

namespace Segment

@[simp]
theorem isObserved_memoryless (x : Segment) : x.memoryless.isObserved = x.isObserved := by
  cases x <;> rfl

@[simp]
theorem isFallback_memoryless (x : Segment) : x.memoryless.isFallback = x.isFallback := by
  cases x <;> rfl

/-- The zeros of a missing day stay zeros. -/
theorem columns_memoryless (x : Segment) : x.memoryless.columns = x.columns.memoryless := by
  cases x with
  | missing => simp [memoryless, columns, Columns.memoryless, Columns.zeros]
  | observed c => rfl

end Segment

namespace Stitched

theorem columns_memoryless (t : Stitched) : t.memoryless.columns = t.columns.memoryless := by
  simp [columns, memoryless, Columns.memoryless, List.flatMap_map, List.map_flatMap,
    Segment.columns_memoryless]

theorem contributingDays_memoryless (t : Stitched) :
    t.memoryless.contributingDays = t.contributingDays := by
  show observedFrom (t.segments.map (·.memoryless)) 1 = observedFrom t.segments 1
  generalize 1 = n
  induction t.segments generalizing n with
  | nil => rfl
  | cons x xs ih => simp [observedFrom_cons, ih]

theorem fitFailures_memoryless (t : Stitched) : t.memoryless.fitFailures = t.fitFailures := by
  simp [fitFailures, memoryless, Function.comp_def]

theorem missingDays_memoryless (t : Stitched) : t.memoryless.missingDays = t.missingDays := by
  simp [missingDays, memoryless, Function.comp_def]

end Stitched

namespace Columns

theorem ofLength_memoryless {c : Columns} {n : Nat} : c.memoryless.OfLength n ↔ c.OfLength n := by
  constructor
  · intro h
    exact ⟨h.invocations, h.execTimes, by simpa [memoryless] using h.memories⟩
  · intro h
    exact ⟨h.invocations, h.execTimes, by simpa [memoryless] using h.memories⟩

theorem misfit_memoryless (c : Columns) (function : String) (n : Nat) :
    c.memoryless.misfit function n = c.misfit function n := by
  simp [misfit, memoryless]

end Columns

theorem rowsOf_memoryless (times : List UInt64) (c : Columns) (provisioning : Provisioning) :
    (rowsOf times c.memoryless provisioning).map (·.memoryless) =
      (rowsOf times c provisioning).map (·.memoryless) := by
  simp only [rowsOf, Columns.memoryless, List.zip_map_right, List.map_map]
  rfl

/-! ## §3 — one trace -/

section Build

variable {σ : Type} [RandomSource σ] {apps apps' : AppTable}

/-- **One slot.** Its segment depends on the number of functions in its memory only. -/
theorem segmentOf_memoryless {slot : Option Observation}
    (h : ∀ o, slot = some o → apps.Knows o.app ∧ apps'.Knows o.app) (s : σ) :
    ResultTwins (fun x x' => x.memoryless = x'.memoryless) (segmentOf apps slot s)
      (segmentOf apps' slot s) := by
  cases slot with
  | none => exact .ok rfl
  | some o =>
    obtain ⟨hknows, hknows'⟩ := h o rfl
    obtain ⟨n, hn, hcount⟩ := hknows.functionCount_eq
    obtain ⟨n', hn', hcount'⟩ := hknows'.functionCount_eq
    have hday := synthesizeDay_eq_shared o s (UInt64.pos_iff_ne_zero.mp hn)
    have hday' := synthesizeDay_eq_shared o s (UInt64.pos_iff_ne_zero.mp hn')
    have hcheck := check_synthesizeDay o n s o.id
    have hcheck' := check_synthesizeDay o n' s o.id
    unfold segmentOf
    simp only [hcount, hcount', hcheck, hcheck']
    -- both days miss their minutes or neither does
    split
    · rw [hday, hday']
      exact .error
    · rw [hday, hday']
      exact .ok (by simp [Segment.memoryless])

/-- **All slots.** -/
theorem segmentsOf_memoryless {slots : List (Option Observation)}
    (h : ∀ o, some o ∈ slots → apps.Knows o.app ∧ apps'.Knows o.app) (s : σ) :
    ResultTwins (fun xs xs' => xs.map Segment.memoryless = xs'.map Segment.memoryless)
      (segmentsOf apps slots s) (segmentsOf apps' slots s) := by
  induction slots generalizing s with
  | nil => exact .ok rfl
  | cons slot slots ih =>
    have hhead := segmentOf_memoryless (fun o ho => h o (ho ▸ List.mem_cons_self)) s
    unfold segmentsOf
    generalize segmentOf apps slot s = r at hhead ⊢
    generalize segmentOf apps' slot s = r' at hhead ⊢
    cases hhead with
    | error => exact .error
    | @ok x x' s hx =>
      have htail := ih (fun o ho => h o (List.mem_cons_of_mem _ ho)) s
      dsimp only
      generalize segmentsOf apps slots s = r at htail ⊢
      generalize segmentsOf apps' slots s = r' at htail ⊢
      cases htail with
      | error => exact .error
      | ok hxs => exact .ok (congrArg₂ List.cons hx hxs)

/-- **One unit.** -/
theorem buildTrace_memoryless {unit : TraceUnit}
    (h : ∀ o, some o ∈ unit.slots → apps.Knows o.app ∧ apps'.Knows o.app)
    (provisioning : Provisioning) (duration : UInt64) (s : σ) :
    ResultTwins (fun t t' => t.memoryless = t'.memoryless)
      (buildTrace apps provisioning duration unit s)
      (buildTrace apps' provisioning duration unit s) := by
  have hsegs := segmentsOf_memoryless h s
  unfold buildTrace stitch
  rw [grid_minuteMs]
  dsimp only
  generalize segmentsOf apps unit.slots s = r at hsegs ⊢
  generalize segmentsOf apps' unit.slots s = r' at hsegs ⊢
  cases hsegs with
  | error => exact .error
  | @ok xs xs' s hxs =>
    generalize minuteGrid (gridSize duration minuteMs) = times
    dsimp only [Except.map]
    have ht : (Stitched.mk xs).memoryless = (Stitched.mk xs').memoryless :=
      congrArg Stitched.mk hxs
    generalize Stitched.mk xs = t at ht ⊢
    generalize Stitched.mk xs' = t' at ht ⊢
    have hcolumns : t.columns.memoryless = t'.columns.memoryless := by
      rw [← Stitched.columns_memoryless, ← Stitched.columns_memoryless, ht]
    by_cases hlen : t.columns.OfLength times.length
    · have hlen' : t'.columns.OfLength times.length := by
        rw [← Columns.ofLength_memoryless, ← hcolumns, Columns.ofLength_memoryless]
        exact hlen
      rw [assemble_of_length hlen, assemble_of_length hlen']
      refine .ok ?_
      -- each part of a trace is read off the masked segments
      unfold GeneratedTrace.memoryless
      dsimp only
      rw [← rowsOf_memoryless, hcolumns, rowsOf_memoryless,
        ← t.contributingDays_memoryless, ← t.fitFailures_memoryless,
        ← t.missingDays_memoryless, ht, t'.contributingDays_memoryless,
        t'.fitFailures_memoryless, t'.missingDays_memoryless]
    · have hlen' : ¬ t'.columns.OfLength times.length := by
        rw [← Columns.ofLength_memoryless, ← hcolumns, Columns.ofLength_memoryless]
        exact hlen
      rw [assemble_of_not_length hlen, assemble_of_not_length hlen', ← Columns.misfit_memoryless,
        hcolumns, Columns.misfit_memoryless]
      exact .error

end Build

/-! ## §4 — runs -/

/-- Two runs that came equally far.  Their indices may differ, for the tables do. -/
structure Progress.Level {σ : Type} (p p' : Progress σ) : Prop where
  report : p.report = p'.report
  source : p.source = p'.source

theorem Progress.Level.listWritten {σ : Type} {p p' : Progress σ} (h : p.Level p')
    (t t' : GeneratedTrace) : (p.listWritten t).Level (p'.listWritten t') :=
  ⟨congrArg (· + { Report.empty with written := 1 }) h.report, h.source⟩

/-- Two outcomes of one unit that differ in memory and index only. -/
inductive OutcomesLevel {σ : Type} : UnitOutcome σ → UnitOutcome σ → Prop where
  | fail (e : Error) {p p' : Progress σ} (h : p.Level p') : OutcomesLevel (.fail e p) (.fail e p')
  | skip {p p' : Progress σ} (h : p.Level p') : OutcomesLevel (.skip p) (.skip p')
  | emit {t t' : GeneratedTrace} {p p' : Progress σ} (ht : t.memoryless = t'.memoryless)
      (h : p.Level p') : OutcomesLevel (.emit t p) (.emit t' p')

section Run

variable {σ : Type} [RandomSource σ] {apps apps' : AppTable} (config : Config)

/-- **One step of two runs.** -/
theorem processUnit_level {unit : TraceUnit}
    (h : ∀ o, some o ∈ unit.slots → apps.Knows o.app ∧ apps'.Knows o.app) {p p' : Progress σ}
    (hp : p.Level p') :
    OutcomesLevel (processUnit apps config unit p) (processUnit apps' config unit p') := by
  have hbuild := buildTrace_memoryless h config.provisioning config.durationMs p.source
  unfold processUnit
  rw [← hp.source]
  generalize buildTrace apps config.provisioning config.durationMs unit p.source = r at hbuild ⊢
  generalize buildTrace apps' config.provisioning config.durationMs unit p.source = r' at hbuild ⊢
  cases hbuild with
  | @error e s =>
    cases e with
    | schemaMismatch =>
      exact .skip ⟨congrArg (· + { Report.empty with functions := 1, schemaMismatches := 1 })
        hp.report, rfl⟩
    | _ => exact .fail _ ⟨hp.report, rfl⟩
  | @ok t t' s ht =>
    have hfailures : t.fitFailures = t'.fitFailures := congrArg (·.fitFailures) ht
    have hmissing : t.missingDays = t'.missingDays := congrArg (·.missingDays) ht
    dsimp only
    rw [hfailures]
    split
    · refine .skip ⟨?_, rfl⟩
      simp only [Progress.countDropped, hp.report, hfailures]
    · refine .emit ht ⟨?_, rfl⟩
      simp only [Progress.countBuilt, hp.report, hfailures, hmissing]

/-- **Two runs over the same units.** -/
theorem recordedRun_level {units : List TraceUnit}
    (h : ∀ unit ∈ units, ∀ o, some o ∈ unit.slots → apps.Knows o.app ∧ apps'.Knows o.app)
    {p p' : Progress σ} (hp : p.Level p') (log log' : List GeneratedTrace)
    (hlog : log.map (·.memoryless) = log'.map (·.memoryless)) :
    let run := recordedRun apps config takeAll units p log
    let run' := recordedRun apps' config takeAll units p' log'
    run.1.2.Level run'.1.2 ∧ run.2.map (·.memoryless) = run'.2.map (·.memoryless) := by
  -- both runs reach the next unit with the same report and state
  induction units generalizing p p' log log' with
  | nil => exact ⟨hp, hlog⟩
  | cons unit units ih =>
    have ih' := @ih fun u hu => h u (List.mem_cons_of_mem _ hu)
    have hstep := processUnit_level config (h unit List.mem_cons_self) hp
    generalize hout : processUnit apps config unit p = r at hstep
    generalize hout' : processUnit apps' config unit p' = r' at hstep
    cases hstep with
    | fail e hq =>
      rw [recordedRun_of_fail takeAll hout, recordedRun_of_fail takeAll hout']
      exact ⟨hq, hlog⟩
    | skip hq =>
      rw [recordedRun_of_skip takeAll hout, recordedRun_of_skip takeAll hout']
      exact ih' hq log log' hlog
    | @emit t t' q q' ht hq =>
      rw [recordedRun_of_emit takeAll hout, recordedRun_of_emit takeAll hout']
      apply ih' (hq.listWritten t t') (log ++ [t]) (log' ++ [t'])
      simp [hlog, ht]

end Run

/-- **Numbers of functions scale memory and nothing else.** A day with any positive number of
functions is the day of an only function with every value of its memory divided by that number.
Runs with two tables that know all applications end well with the same report and state, whatever
the indices they list their traces in, and hand over the same traces but for their memory. -/
theorem generateTraces_scales_memory {σ : Type} [RandomSource σ] :
    (∀ (o : Observation) (n : UInt64) (s : σ), n ≠ 0 →
      synthesizeDay o n s = ((synthesizeDay o 1 s).1.shared n, (synthesizeDay o 1 s).2)) ∧
    ∀ (apps apps' : AppTable) (config : Config) (observations : List Observation) (source : σ)
      (index index' : AuditIndex),
      (∀ o ∈ observations, apps.Knows o.app ∧ apps'.Knows o.app) →
        let run := (generateTraces apps config (recorder takeAll) observations source index).run []
        let run' :=
          (generateTraces apps' config (recorder takeAll) observations source index').run []
        run.1.1 = .ok () ∧ run'.1.1 = .ok () ∧
          run.1.2.report = run'.1.2.report ∧ run.1.2.source = run'.1.2.source ∧
          run.2.map (·.memoryless) = run'.2.map (·.memoryless) := by
  refine ⟨fun o n s hn => synthesizeDay_eq_shared o s hn, ?_⟩
  intro apps apps' config observations source index index' hknows
  have hslots : ∀ unit ∈ config.units observations, ∀ o, some o ∈ unit.slots →
      apps.Knows o.app ∧ apps'.Knows o.app :=
    fun unit hunit o ho => hknows o (TraceUnit.mem_of_mem_slots hunit ho)
  have hinitial : (Progress.initial source index).Level (.initial source index') := ⟨rfl, rfl⟩
  obtain ⟨hlevel, htraces⟩ := recordedRun_level config hslots hinitial [] [] rfl
  exact ⟨generateTraces_ok_of_knows fun o ho => (hknows o ho).1,
    generateTraces_ok_of_knows fun o ho => (hknows o ho).2, hlevel.report, hlevel.source, htraces⟩

/-- The application of `idleObservation` with more functions. -/
def crowdedTable : AppTable := ⟨[⟨"a", 1000, ⟨0⟩⟩]⟩

/-- Two timers that share their memory among two functions and among a thousand. -/
theorem generateTraces_scales_memory_timers :
    let observations :=
      [{ timerObservation with memory.average := 1000.0 },
        { otherTimer with memory.average := 3000.0 }]
    (∀ o ∈ observations, idleTable.Knows o.app ∧ crowdedTable.Knows o.app) ∧
      let run := (generateTraces idleTable oneDayConfig (recorder takeAll) observations
        (WordCycle.ofList [1, 2]) (.ofTable idleTable)).run []
      let run' := (generateTraces crowdedTable oneDayConfig (recorder takeAll) observations
        (WordCycle.ofList [1, 2]) (.ofTable crowdedTable)).run []
      run.1.2.report = run'.1.2.report ∧
        run.2.map (·.memoryless) = run'.2.map (·.memoryless) ∧
        run.2.map (·.firstRow?) = [some (1, 500.0), some (1, 1500.0)] ∧
        run'.2.map (·.firstRow?) = [some (1, 1.0), some (1, 3.0)] := by
  intro observations
  have hknows : ∀ o ∈ observations, idleTable.Knows o.app ∧ crowdedTable.Knows o.app := by
    intro o ho
    have happ : o.app = "a" := by
      rcases List.mem_pair.mp ho with rfl | rfl <;> rfl
    rw [happ]
    exact ⟨idleTable_knows, _, rfl, by decide⟩
  have hrows : ((generateTraces idleTable oneDayConfig (recorder takeAll) observations
      (WordCycle.ofList [1, 2]) (.ofTable idleTable)).run []).2.map (·.firstRow?) =
        [some (1, 500.0), some (1, 1500.0)] := by
    decide +kernel
  have hrows' : ((generateTraces crowdedTable oneDayConfig (recorder takeAll) observations
      (WordCycle.ofList [1, 2]) (.ofTable crowdedTable)).run []).2.map (·.firstRow?) =
        [some (1, 1.0), some (1, 3.0)] := by
    decide +kernel
  obtain ⟨-, -, hreport, -, htraces⟩ := generateTraces_scales_memory.2 idleTable crowdedTable
    oneDayConfig observations (WordCycle.ofList [1, 2]) (.ofTable idleTable)
    (.ofTable crowdedTable) hknows
  exact ⟨hknows, hreport, htraces, hrows, hrows'⟩

end WorkloadSynth
