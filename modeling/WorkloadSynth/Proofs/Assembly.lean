import WorkloadSynth.Proofs.Generate
import WorkloadSynth.Proofs.RowFormat

/-!
# Columns that fit their grid

Rows are joined up to the end of the shortest column, so every column is checked before
(`assemble_eq_error_iff`), and what is joined has all of the grid (`Assembled`).  The columns of a
built trace are whole days, and the grid is as long as its duration says: a trace is built if the
two meet, and otherwise there is none (`assembly_checked`).
-/

namespace WorkloadSynth

/-! ## §1 — doubles as words -/

namespace Double

/-- A double as a word: without its fraction, and as the nearest word if it is none.  The double
that is not a number is zero. -/
def cut (x : Float) : Nat :=
  if x.isFinite then min ⌊value x⌋₊ 18446744073709551615
  else if 0.0 < x then 18446744073709551615
  else 0

theorem toNat_toUInt64 (x : Float) : x.toUInt64.toNat = cut x := by
  unfold cut
  by_cases hfinite : x.isFinite = true
  · rw [if_pos hfinite, toUInt64_eq_floor hfinite, toNat_ofNatClamp]
  · rw [if_neg hfinite]
    have hmodel : ¬ x.toModel.unpack.isFinite = true := hfinite
    show x.toModel.unpack.toUInt64.toNat = _
    simp only [lt_iff]
    generalize x.toModel.unpack = f at hmodel ⊢
    cases f with
    | notANumber => rfl
    | infinity s =>
      cases s with
      | positive => rfl
      | negative => rfl
    | zero s => exact absurd rfl hmodel
    | finite s m e hm => exact absurd rfl hmodel

end Double

/-! ## §2 — checked columns -/

theorem checkColumn_eq_ok_iff {function : String} {n : Nat} {name : ColumnName}
    {values : List Float} :
    (∃ u, checkColumn function n name values = .ok u) ↔ values.length = n := by
  by_cases h : values.length = n
  · exact iff_of_true ⟨(), checkColumn_ok h⟩ h
  · rw [checkColumn_ne h]
    exact iff_of_false nofun h

theorem checkColumn_eq_error_iff {function : String} {n : Nat} {name : ColumnName}
    {values : List Float} {e : Error} :
    checkColumn function n name values = .error e ↔
      values.length ≠ n ∧ e = .schemaMismatch function name n values.length := by
  by_cases h : values.length = n
  · rw [checkColumn_ok h]
    exact iff_of_false nofun fun h' => h'.1 h
  · rw [checkColumn_ne h, Except.error.injEq]
    exact ⟨fun he => ⟨h, he.symm⟩, fun h' => h'.2.symm⟩

namespace Columns

/-- The columns in the order of their checks. -/
def named (c : Columns) : List (ColumnName × List Float) :=
  [(.invocations, c.invocations), (.execTimes, c.execTimes), (.memories, c.memories)]

theorem ofLength_iff {c : Columns} {n : Nat} : c.OfLength n ↔ ∀ x ∈ c.named, x.2.length = n := by
  simp only [named, List.forall_mem_cons]
  constructor
  · rintro ⟨hi, he, hm⟩
    exact ⟨hi, he, hm, fun x hx => absurd hx List.not_mem_nil⟩
  · rintro ⟨hi, he, hm, -⟩
    exact ⟨hi, he, hm⟩

/-- The first column that does not have `n` values. -/
def FirstMisfit (c : Columns) (n : Nat) (name : ColumnName) (values : List Float) : Prop :=
  ∃ before after, c.named = before ++ (name, values) :: after ∧
    (∀ x ∈ before, x.2.length = n) ∧ values.length ≠ n

end Columns

section Assemble

variable (function : String) (times : List UInt64) (c : Columns) (provisioning : Provisioning)

theorem assemble_eq_mapM :
    assemble function times c provisioning =
      (c.named.mapM fun x => checkColumn function times.length x.1 x.2).map fun _ =>
        rowsOf times c provisioning := by
  unfold assemble Columns.named
  rw [List.mapM_cons, List.mapM_cons, List.mapM_cons, List.mapM_nil]
  cases checkColumn function times.length .invocations c.invocations with
  | error e => rfl
  | ok _ =>
    cases checkColumn function times.length .execTimes c.execTimes with
    | error e => rfl
    | ok _ =>
      cases checkColumn function times.length .memories c.memories with
      | error e => rfl
      | ok _ => rfl

/-- **The first misfit is reported.** -/
theorem assemble_eq_error_iff {e : Error} :
    assemble function times c provisioning = .error e ↔
      ∃ name values, c.FirstMisfit times.length name values ∧
        e = .schemaMismatch function name times.length values.length := by
  rw [assemble_eq_mapM, map_eq_error_iff, mapM_eq_error_iff]
  simp only [checkColumn_eq_ok_iff, checkColumn_eq_error_iff]
  constructor
  · rintro ⟨before, ⟨name, values⟩, after, hnamed, hbefore, hlength, he⟩
    exact ⟨name, values, ⟨before, after, hnamed, hbefore, hlength⟩, he⟩
  · rintro ⟨name, values, ⟨before, after, hnamed, hbefore, hlength⟩, he⟩
    exact ⟨before, (name, values), after, hnamed, hbefore, hlength, he⟩

end Assemble

/-! ## §3 — joined rows -/

/-- A row that joins a timestamp with one value of each column. -/
structure Sample.Joins (row : Sample) (provisioning : Provisioning) (time : UInt64)
    (invocations exec memory : Float) : Prop where
  time : row.time = time
  invocations : row.invocations.toNat = Double.cut invocations
  exec : row.exec.toNat = Double.cut exec
  cpuProvisioned : row.cpuProvisioned = provisioning.cpu
  memProvisioned : row.memProvisioned = provisioning.memory
  cpuUsed : row.cpuUsed = 0.0
  memUsed : row.memUsed = Double.truncate memory

/-- What is assembled from a grid and columns: a row for each timestamp, in order. -/
structure Assembled (times : List UInt64) (c : Columns) (provisioning : Provisioning)
    (rows : Trace) : Prop where
  length : rows.length = times.length
  rows : ∀ (k : Nat) (row : Sample), rows[k]? = some row → ∃ time i e m,
    times[k]? = some time ∧ c.invocations[k]? = some i ∧ c.execTimes[k]? = some e ∧
      c.memories[k]? = some m ∧ row.Joins provisioning time i e m

theorem sampleRow_joins (provisioning : Provisioning) (time : UInt64) (i e m : Float) :
    (sampleRow provisioning time i e m).Joins provisioning time i e m where
  time := rfl
  invocations := Double.toNat_toUInt64 i
  exec := Double.toNat_toUInt64 e
  cpuProvisioned := rfl
  memProvisioned := rfl
  cpuUsed := rfl
  memUsed := rfl

theorem assembled_rowsOf {times : List UInt64} {c : Columns} (h : c.OfLength times.length)
    (provisioning : Provisioning) :
    Assembled times c provisioning (rowsOf times c provisioning) where
  length := rowsOf_length h provisioning
  rows := by
    intro k row hrow
    obtain ⟨time, i, e, m, ht, hi, he, hm, rfl⟩ := exists_of_rowsOf_getElem? hrow
    exact ⟨time, i, e, m, ht, hi, he, hm, sampleRow_joins provisioning time i e m⟩

/-! ## §4 — traces of whole days -/

theorem gridSize_minuteMs (duration : UInt64) :
    gridSize duration minuteMs = duration.toNat ⌈/⌉ 60000 :=
  gridSize_eq_ceilDiv duration minuteMs

section Build

variable {σ : Type} [RandomSource σ] {apps : AppTable} {unit : TraceUnit}

/-- **Slots that do not cover the grid.** All columns have the same wrong length, and the first of
them is reported. -/
theorem buildTrace_of_not_covering (hall : ∀ o, some o ∈ unit.slots → o.Stitchable apps)
    {duration : UInt64}
    (hsize : unit.slots.length * minutesPerDay ≠ gridSize duration minuteMs)
    (provisioning : Provisioning) (s : σ) :
    (buildTrace apps provisioning duration unit s).1 =
      .error (.schemaMismatch unit.name .invocations (gridSize duration minuteMs)
        (unit.slots.length * minutesPerDay)) := by
  have hlength := (Stitched.ofDays_segmentsFrom hall s).length
  have hmisfit : assemble unit.name (minuteGrid (gridSize duration minuteMs))
      (Stitched.mk (segmentsFrom apps unit.slots s)).columns provisioning =
        .error (.schemaMismatch unit.name .invocations (gridSize duration minuteMs)
          (unit.slots.length * minutesPerDay)) := by
    rw [assemble_eq_error_iff, minuteGrid_length]
    refine ⟨.invocations, _, ⟨[], _, rfl, fun x hx => absurd hx List.not_mem_nil, ?_⟩, ?_⟩
    · rw [hlength.invocations]
      exact hsize
    · rw [hlength.invocations]
  unfold buildTrace
  rw [grid_minuteMs]
  simp only [stitch_of_stitchable hall, hmisfit]

/-- **Slots that cover the grid.** -/
theorem exists_buildTrace_of_covering (hall : ∀ o, some o ∈ unit.slots → o.Stitchable apps)
    {duration : UInt64}
    (hsize : unit.slots.length * minutesPerDay = gridSize duration minuteMs)
    (provisioning : Provisioning) (s : σ) :
    ∃ t, (buildTrace apps provisioning duration unit s).1 = .ok t ∧
      Assembled (minuteGrid (gridSize duration minuteMs))
        (Stitched.mk (segmentsFrom apps unit.slots s)).columns provisioning t.trace := by
  rcases buildTrace_cases apps provisioning duration unit s hsize with
    ⟨-, hb⟩ | ⟨d, e, hfirst, -⟩
  · refine ⟨_, congrArg Prod.fst hb, assembled_rowsOf ?_ provisioning⟩
    rw [minuteGrid_length, ← hsize]
    exact (Stitched.ofDays_segmentsFrom hall s).length
  · exact absurd hall hfirst.not_stitchable

end Build

/-- **No trace is cut short.** Assembly fails exactly if a column does not have the length of the
grid, and names the first one.  A trace is built exactly if its days have as many minutes as its
grid; it has a row for each of them then. -/
theorem assembly_checked {σ : Type} [RandomSource σ] :
    (∀ function times c provisioning,
      (∀ e, assemble function times c provisioning = .error e ↔
        ∃ name values, c.FirstMisfit times.length name values ∧
          e = .schemaMismatch function name times.length values.length) ∧
      ((∀ x ∈ c.named, x.2.length = times.length) →
        ∃ rows, assemble function times c provisioning = .ok rows ∧
          Assembled times c provisioning rows)) ∧
    ∀ (apps : AppTable) (provisioning : Provisioning) (duration : UInt64) (unit : TraceUnit)
      (s : σ),
      (duration.toNat ⌈/⌉ 60000) * 60000 < 2 ^ 64 →
      (∀ o, some o ∈ unit.slots → o.Stitchable apps) →
      ((∃ t, (buildTrace apps provisioning duration unit s).1 = .ok t) ↔
        unit.slots.length * 1440 = duration.toNat ⌈/⌉ 60000) ∧
      (unit.slots.length * 1440 ≠ duration.toNat ⌈/⌉ 60000 →
        (buildTrace apps provisioning duration unit s).1 =
          .error (.schemaMismatch unit.name .invocations (duration.toNat ⌈/⌉ 60000)
            (unit.slots.length * 1440))) ∧
      ∀ t, (buildTrace apps provisioning duration unit s).1 = .ok t →
        t.trace.length = duration.toNat ⌈/⌉ 60000 ∧
        ∀ (k : Nat) (row : Sample), t.trace[k]? = some row → row.time.toNat = 60000 * (k + 1) := by
  refine ⟨?_, ?_⟩
  · intro function times c provisioning
    refine ⟨fun e => assemble_eq_error_iff function times c provisioning, fun h => ?_⟩
    have hlength := Columns.ofLength_iff.mpr h
    exact ⟨_, assemble_of_length hlength provisioning, assembled_rowsOf hlength provisioning⟩
  · intro apps provisioning duration unit s hfits hall
    rw [← gridSize_minuteMs] at hfits ⊢
    by_cases hsize : unit.slots.length * minutesPerDay = gridSize duration minuteMs
    · obtain ⟨t, hbuilt, htrace⟩ := exists_buildTrace_of_covering hall hsize provisioning s
      rw [hbuilt]
      refine ⟨iff_of_true ⟨t, rfl⟩ hsize, fun h => absurd hsize h, ?_⟩
      intro t' ht
      obtain rfl := Except.ok.inj ht
      refine ⟨htrace.length.trans (minuteGrid_length _), fun k row hrow => ?_⟩
      obtain ⟨time, i, e, m, htime, -, -, -, hjoins⟩ := htrace.rows k row hrow
      rw [hjoins.time]
      exact toNat_of_minuteGrid_getElem? hfits htime
    · rw [buildTrace_of_not_covering hall hsize]
      exact ⟨iff_of_false nofun hsize, fun _ => rfl, nofun⟩

/-- A day and a half of a function that was observed on one day only.  The last minute of the grid
has begun, which makes it one row longer. -/
theorem assembly_checked_halfDay :
    ((129600001 : UInt64).toNat ⌈/⌉ 60000) * 60000 < 2 ^ 64 ∧
      (∀ o, some o ∈ [some idleObservation] → o.Stitchable idleTable) ∧
      (buildTrace idleTable .standard 129600001 ⟨"f", [some idleObservation]⟩
        (WordCycle.ofList [1])).1 = .error (.schemaMismatch "f" .invocations 2161 1440) ∧
      ∃ t, (buildTrace idleTable .standard 86340001 ⟨"f", [some idleObservation]⟩
        (WordCycle.ofList [1])).1 = .ok t ∧ t.trace.length = 1440 := by
  have hall : ∀ o, some o ∈ [some idleObservation] → o.Stitchable idleTable := by
    intro o ho
    obtain rfl := Option.some.inj (List.mem_singleton.mp ho)
    exact ⟨idleTable_knows, nofun⟩
  have hlong : (129600001 : UInt64).toNat ⌈/⌉ 60000 = 2161 := by decide
  have hday : (86340001 : UInt64).toNat ⌈/⌉ 60000 = 1440 := by decide
  obtain ⟨-, hbuild⟩ := assembly_checked (σ := WordCycle)
  have hfits : ((129600001 : UInt64).toNat ⌈/⌉ 60000) * 60000 < 2 ^ 64 := by
    rw [hlong]
    decide
  obtain ⟨-, hmisfit, -⟩ := hbuild idleTable .standard 129600001 ⟨"f", [some idleObservation]⟩
    (WordCycle.ofList [1]) hfits hall
  obtain ⟨hbuilt, -, hrows⟩ := hbuild idleTable .standard 86340001 ⟨"f", [some idleObservation]⟩
    (WordCycle.ofList [1]) (by rw [hday]; decide) hall
  rw [hlong] at hmisfit
  rw [hday] at hbuilt hrows
  obtain ⟨t, ht⟩ := hbuilt.mpr rfl
  exact ⟨hfits, hall, hmisfit (by decide), t, ht, (hrows t ht).1⟩

end WorkloadSynth
