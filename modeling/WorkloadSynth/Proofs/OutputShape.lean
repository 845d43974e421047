import WorkloadSynth.Proofs.Double
import WorkloadSynth.Proofs.Generate
import WorkloadSynth.Proofs.Rows

/-!
# The shape of what a run writes

Every trace that a run hands over has one row per minute of its days, with the timestamps of the
grid, the resources of the configuration, and a memory that is a whole number or the infinity.  The
memory column is followed from the floor of the sampler through the division by the number of
functions to the truncation in the row.
-/

namespace WorkloadSynth

open Double (NonNeg nonNeg_zero nonNeg_of_pos WholeOrInfinite)

/-! ## §1 — the memory column -/

theorem nonNeg_floorAtZero (x : Float) : NonNeg (floorAtZero x) := by
  unfold floorAtZero
  split
  · exact nonNeg_of_pos ‹_›
  · exact nonNeg_zero

/-- Every source puts its values through the floor. -/
theorem ColumnSource.nonNeg_of_mem_generate {σ : Type} [RandomSource σ] {source : ColumnSource}
    {n : Nat} {s : σ} {x : Float} (hx : x ∈ (source.generate n s).1) : NonNeg x := by
  cases source with
  | lognormal mu sigma =>
    obtain ⟨y, -, rfl⟩ := List.mem_map.mp hx
    exact nonNeg_floorAtZero y
  | empirical ecdf =>
    obtain ⟨y, -, rfl⟩ := List.mem_map.mp hx
    exact nonNeg_floorAtZero y
  | literal values =>
    obtain ⟨y, -, rfl⟩ := List.mem_map.mp hx
    exact nonNeg_floorAtZero y
  | constant value =>
    obtain rfl := List.eq_of_mem_replicate hx
    exact nonNeg_floorAtZero value

section Memory

variable {σ : Type} [RandomSource σ] {apps : AppTable}

/-- With a fit the memory is floored and then shared out, without one it is the other way round. -/
theorem synthesizeDay_memories_nonNeg {o : Observation} {count : UInt64} (hcount : count ≠ 0)
    {s : σ} {x : Float} (hx : x ∈ (synthesizeDay o count s).1.memories) : NonNeg x := by
  cases h : o.fittedSources with
  | error e =>
    rw [synthesizeDay_memories_of_fallback o count s h] at hx
    obtain rfl := List.eq_of_mem_replicate hx
    exact nonNeg_floorAtZero _
  | ok sources =>
    obtain ⟨exec, memory⟩ := sources
    -- values were floored before they are shared out
    rw [synthesizeDay_memories_of_fitted o count s h] at hx
    obtain ⟨y, hy, rfl⟩ := List.mem_map.mp hx
    exact (ColumnSource.nonNeg_of_mem_generate hy).div_toFloat hcount

theorem segmentAt_memories_nonNeg {slot : Option Observation}
    (h : ∀ o, slot = some o → o.Stitchable apps) {s : σ} {x : Float}
    (hx : x ∈ (segmentAt apps slot s).columns.memories) : NonNeg x := by
  cases slot with
  | none =>
    obtain rfl := List.eq_of_mem_replicate hx
    exact nonNeg_zero
  | some o =>
    obtain ⟨count, hpos, hc⟩ := (h o rfl).knows.functionCount_eq
    rw [segmentAt_of_functionCount apps hc] at hx
    exact synthesizeDay_memories_nonNeg (UInt64.pos_iff_ne_zero.mp hpos) hx

theorem stitched_memories_nonNeg {slots : List (Option Observation)}
    (h : ∀ o, some o ∈ slots → o.Stitchable apps) {s : σ} {x : Float}
    (hx : x ∈ (Stitched.mk (segmentsFrom apps slots s)).columns.memories) : NonNeg x := by
  obtain ⟨segment, hseg, hx⟩ := List.mem_flatMap.mp hx
  obtain ⟨slot, hslot, s', rfl⟩ := exists_slot_of_mem_segmentsFrom apps hseg
  exact segmentAt_memories_nonNeg (fun o ho => h o (ho ▸ hslot)) hx

end Memory

/-! ## §2 — shaped traces -/

/-- What row `k` of a trace has to be. -/
structure Sample.Shaped (config : Config) (k : Nat) (row : Sample) : Prop where
  time : row.time.toNat = 60000 * (k + 1)
  cpuProvisioned : row.cpuProvisioned = config.provisioning.cpu
  memProvisioned : row.memProvisioned = config.provisioning.memory
  cpuUsed : row.cpuUsed = 0.0
  not_isNaN : row.memUsed.isNaN = false
  /-- The sign bit is clear, so the memory is not `-0` either. -/
  not_isNegative : Double.isNegative row.memUsed = false
  whole : WholeOrInfinite row.memUsed

/-- What a trace of a run has to be. -/
structure GeneratedTrace.Shaped (config : Config) (t : GeneratedTrace) : Prop where
  length : t.trace.length = config.traceDays * minutesPerDay
  rows : ∀ (k : Nat) (row : Sample), t.trace[k]? = some row → row.Shaped config k

section Trace

variable {σ : Type} [RandomSource σ] {apps : AppTable} {config : Config} {unit : TraceUnit}
  {p : Progress σ}

theorem unitTrace_shaped (hcovers : unit.Covers config)
    (hfits : config.traceDays * 86400000 < 2 ^ 64)
    (h : ∀ o, some o ∈ unit.slots → o.Stitchable apps) :
    (unitTrace apps config unit p).Shaped config := by
  have hsize := gridSize_durationMs hfits
  have hlen := (Stitched.ofDays_segmentsFrom h p.source).length
  rw [hcovers, ← hsize] at hlen
  refine ⟨?_, ?_⟩
  · rw [← hsize]
    refine (rowsOf_length ?_ config.provisioning).trans (minuteGrid_length _)
    rw [minuteGrid_length]
    exact hlen
  · intro k row hrow
    obtain ⟨time, i, e, m, ht, -, -, hm, rfl⟩ := exists_of_rowsOf_getElem? hrow
    -- of the four values of a row only the memory needs an argument
    have hneg := (stitched_memories_nonNeg h (List.mem_of_getElem? hm)).truncate
    refine ⟨?_, rfl, rfl, rfl, hneg.1.not_isNaN, hneg.1.not_isNegative, hneg.2⟩
    rw [hsize] at ht
    exact toNat_of_minuteGrid_getElem? (minutes_fit hfits) ht

/-- Only kept units are handed over, and their traces are shaped. -/
theorem shaped_of_emit (hcovers : unit.Covers config)
    (hfits : config.traceDays * 86400000 < 2 ^ 64) {t : GeneratedTrace} {p' : Progress σ}
    (h : processUnit apps config unit p = .emit t p') : t.Shaped config := by
  have hres := unitResult_processUnit apps p hcovers hfits
  rw [h] at hres
  cases hres with
  | built hall hkept => exact unitTrace_shaped hcovers hfits hall

end Trace

/-! ## §3 — units that do not fit the grid -/

/-- Is one of the observed days of a unit the day of a timer that misses minutes? -/
def TraceUnit.HasShortTimer (unit : TraceUnit) : Prop :=
  ∃ o, some o ∈ unit.slots ∧ o.trigger = .timer ∧ o.invocations.length ≠ minutesPerDay

instance (unit : TraceUnit) : Decidable unit.HasShortTimer :=
  decidable_of_iff (∃ slot ∈ unit.slots, ∃ o ∈ slot, o.trigger = .timer ∧
    o.invocations.length ≠ minutesPerDay) <| by
  constructor
  · rintro ⟨slot, hslot, o, rfl, ho⟩
    exact ⟨o, hslot, ho⟩
  · rintro ⟨o, hslot, ho⟩
    exact ⟨some o, hslot, o, rfl, ho⟩

section Mismatches

variable {σ : Type} [RandomSource σ] {apps : AppTable} {config : Config} {unit : TraceUnit}
  {p p' : Progress σ}

/-- A unit adds at most one mismatch, and only if it has a short timer. -/
theorem schemaMismatches_of_skip (hcovers : unit.Covers config)
    (hfits : config.traceDays * 86400000 < 2 ^ 64)
    (h : processUnit apps config unit p = .skip p') :
    p'.report.schemaMismatches = p.report.schemaMismatches ∨
      (p'.report.schemaMismatches = p.report.schemaMismatches + 1 ∧ unit.HasShortTimer) := by
  have hres := unitResult_processUnit apps p hcovers hfits
  rw [h] at hres
  cases hres with
  | dropped hall hkept => exact .inl rfl
  | mismatch d o ho ht hl => exact .inr ⟨rfl, o, List.mem_of_getElem? ho, ht, hl⟩

theorem schemaMismatches_of_emit (hcovers : unit.Covers config)
    (hfits : config.traceDays * 86400000 < 2 ^ 64) {t : GeneratedTrace}
    (h : processUnit apps config unit p = .emit t p') :
    p'.report.schemaMismatches = p.report.schemaMismatches := by
  have hres := unitResult_processUnit apps p hcovers hfits
  rw [h] at hres
  cases hres with
  | built hall hkept => rfl

theorem schemaMismatches_of_fail (hcovers : unit.Covers config)
    (hfits : config.traceDays * 86400000 < 2 ^ 64) {e : Error}
    (h : processUnit apps config unit p = .fail e p') :
    p'.report.schemaMismatches = p.report.schemaMismatches := by
  have hres := unitResult_processUnit apps p hcovers hfits
  rw [h] at hres
  cases hres with
  | unknown d o ho hk => rfl

/-- A run counts no more mismatches than there are units with a short timer. -/
theorem schemaMismatches_recordedRun_le (apps : AppTable)
    (answer : List GeneratedTrace → GeneratedTrace → Except Error Unit)
    (hfits : config.traceDays * 86400000 < 2 ^ 64) {units : List TraceUnit}
    (hcovers : ∀ unit ∈ units, unit.Covers config) (p : Progress σ) (log : List GeneratedTrace) :
    (recordedRun apps config answer units p log).1.2.report.schemaMismatches ≤
      p.report.schemaMismatches + units.countP fun unit => unit.HasShortTimer := by
  induction units generalizing p log with
  | nil => exact Nat.le_refl _
  | cons unit units ih =>
    have hunit := hcovers unit List.mem_cons_self
    have ih' := ih fun u hu => hcovers u (List.mem_cons_of_mem _ hu)
    rw [List.countP_cons]
    cases hout : processUnit apps config unit p with
    | fail e p' =>
      have hstep := schemaMismatches_of_fail hunit hfits hout
      rw [recordedRun_of_fail answer hout]
      dsimp only
      omega
    -- only a skipped unit can add a mismatch
    | skip p' =>
      rw [recordedRun_of_skip answer hout]
      have hrest := ih' p' log
      rcases schemaMismatches_of_skip hunit hfits hout with hstep | ⟨hstep, hshort⟩
      · omega
      · rw [if_pos (decide_eq_true hshort)]
        omega
    | emit t p' =>
      have hstep := schemaMismatches_of_emit hunit hfits hout
      rw [recordedRun_of_emit answer hout]
      cases answer log t with
      | error e => dsimp only; omega
      | ok u =>
        have hrest := ih' (p'.listWritten t) (log ++ [t])
        have hlisted : (p'.listWritten t).report.schemaMismatches =
            p'.report.schemaMismatches := rfl
        dsimp only
        omega

end Mismatches

/-! ## §4 — the shape of a run -/

section Run

variable {σ : Type} [RandomSource σ] {apps : AppTable} {config : Config}

theorem shaped_of_mem_recordedRun
    (answer : List GeneratedTrace → GeneratedTrace → Except Error Unit)
    (hfits : config.traceDays * 86400000 < 2 ^ 64) {units : List TraceUnit}
    (hcovers : ∀ unit ∈ units, unit.Covers config) (p : Progress σ) {t : GeneratedTrace}
    (ht : t ∈ (recordedRun apps config answer units p []).2) : t.Shaped config := by
  have hinv : ∀ t ∈ (recordedRun apps config answer units p []).2, t.Shaped config := by
    refine recordedRun_invariant answer (fun _ log => ∀ t ∈ log, t.Shaped config)
      ?_ ?_ ?_ ?_
    · intro unit _ p log e p' hlog _
      exact hlog
    · intro unit _ p log p' hlog _
      exact hlog
    · intro unit hunit p log t p' hlog hout
      have hmore : ∀ u ∈ log ++ [t], u.Shaped config := by
        intro u hu
        rcases List.mem_append.mp hu with hu | hu
        · exact hlog u hu
        · rw [List.mem_singleton.mp hu]
          exact shaped_of_emit (hcovers unit hunit) hfits hout
      exact ⟨hmore, hmore⟩
    · intro t ht
      exact absurd ht List.not_mem_nil
  exact hinv t ht

/-- **The shape of a run.** Whatever the observations say and however the sink answers, every
trace handed over is shaped.  Only a unit with a short timer is counted as a mismatch, so a run over
observations that were read from a file counts none. -/
theorem generateTraces_shape (apps : AppTable) (config : Config)
    (answer : List GeneratedTrace → GeneratedTrace → Except Error Unit)
    (observations : List Observation) (source : σ) (index : AuditIndex)
    (hfits : config.traceDays * 86400000 < 2 ^ 64) :
    let run := (generateTraces apps config (recorder answer) observations source index).run []
    (∀ t ∈ run.2, t.Shaped config) ∧
    (∀ unit ∈ config.units observations, ∀ p p' : Progress σ,
      processUnit apps config unit p = .skip p' →
        p'.report.schemaMismatches ≠ p.report.schemaMismatches → unit.HasShortTimer) ∧
    run.1.2.report.schemaMismatches ≤
      (config.units observations).countP (fun unit => unit.HasShortTimer) ∧
    (∀ bytes, Observation.readAll bytes = .ok observations →
      run.1.2.report.schemaMismatches = 0) := by
  intro run
  have hcovers : ∀ unit ∈ config.units observations, unit.Covers config :=
    fun unit hunit => Config.covers_of_mem_units hunit
  have hle : run.1.2.report.schemaMismatches ≤
      (config.units observations).countP fun unit => unit.HasShortTimer := by
    have hrun := schemaMismatches_recordedRun_le apps answer hfits hcovers
      (.initial source index) []
    rw [show (Progress.initial source index).report.schemaMismatches = 0 from rfl,
      Nat.zero_add] at hrun
    exact hrun
  refine ⟨fun t ht => shaped_of_mem_recordedRun answer hfits hcovers _ ht, ?_, hle, ?_⟩
  · intro unit hunit p p' hout hne
    rcases schemaMismatches_of_skip (hcovers unit hunit) hfits hout with heq | ⟨-, hshort⟩
    · exact absurd heq hne
    · exact hshort
  · intro bytes hread
    -- every row that was read has all of its minutes, so no timer is short
    have hnone : (config.units observations).countP (fun unit => unit.HasShortTimer) = 0 := by
      rw [List.countP_eq_zero]
      intro unit hunit hshort
      obtain ⟨o, ho, -, hlen⟩ := of_decide_eq_true hshort
      exact hlen (Observation.invocations_length_of_readAll hread
        (TraceUnit.mem_of_mem_slots hunit ho))
    omega

end Run

/-- Two timers are handed over as shaped traces, and one that was observed for no minute is the only
mismatch. -/
theorem generateTraces_shape_timers :
    let observations := [timerObservation, otherTimer, { shortTimer with function := "h" }]
    oneDayConfig.traceDays * 86400000 < 2 ^ 64 ∧
      let run := (generateTraces idleTable oneDayConfig (recorder takeAll) observations
        (WordCycle.ofList [1]) (.ofTable idleTable)).run []
      run.2.map (·.name) = ["f", "g"] ∧ (∀ t ∈ run.2, t.Shaped oneDayConfig) ∧
        run.1.2.report.schemaMismatches = 1 ∧
        run.1.2.report.schemaMismatches ≤
          (oneDayConfig.units observations).countP fun unit => unit.HasShortTimer := by
  intro observations
  have hfits : oneDayConfig.traceDays * 86400000 < 2 ^ 64 := by decide
  have hnames : ((generateTraces idleTable oneDayConfig (recorder takeAll) observations
      (WordCycle.ofList [1]) (.ofTable idleTable)).run []).2.map (·.name) = ["f", "g"] := by
    decide +kernel
  have hone : ((generateTraces idleTable oneDayConfig (recorder takeAll) observations
      (WordCycle.ofList [1]) (.ofTable idleTable)).run []).1.2.report.schemaMismatches = 1 := by
    decide +kernel
  obtain ⟨hshaped, -, hle, -⟩ := generateTraces_shape idleTable oneDayConfig takeAll observations
    (WordCycle.ofList [1]) (.ofTable idleTable) hfits
  exact ⟨hfits, hnames, hshaped, hone, hle⟩

end WorkloadSynth
