import WorkloadSynth.Proofs.Accounting

/-!
# Runs over concatenated observations

A run over two lists of units goes through the first and then, unless it was stopped, through the
second (`recordedRun_append`).  What lies behind a run does not steer it: counters and traces from
before are carried along (`recordedRun_takeAll_behind`).  New functions come behind the old ones in
the list of units, so a generation over two lists of observations is a generation over the first and
one over the second (`generateTraces_append`).
-/

namespace WorkloadSynth

/-! ## §1 — two lists of units -/

section Append

variable {σ : Type} [RandomSource σ] (apps : AppTable) (config : Config)
  (answer : List GeneratedTrace → GeneratedTrace → Except Error Unit)

/-- **A run over two lists of units.** The second list is reached only if nothing stopped the run
before. -/
theorem recordedRun_append (units more : List TraceUnit) (p : Progress σ)
    (log : List GeneratedTrace) :
    recordedRun apps config answer (units ++ more) p log =
      match recordedRun apps config answer units p log with
      | ((.ok (), q), taken) => recordedRun apps config answer more q taken
      | stopped => stopped := by
  induction units generalizing p log with
  | nil => rfl
  | cons unit units ih =>
    rw [List.cons_append]
    cases hout : processUnit apps config unit p with
    | fail e q =>
      rw [recordedRun_of_fail answer hout, recordedRun_of_fail answer hout]
    | skip q =>
      rw [recordedRun_of_skip answer hout, recordedRun_of_skip answer hout]
      exact ih q log
    | emit t q =>
      rw [recordedRun_of_emit answer hout, recordedRun_of_emit answer hout]
      cases answer log t with
      | error e => rfl
      | ok u => exact ih (q.listWritten t) (log ++ [t])

/-- The second of two runs starts where the first one ended. -/
theorem recordedRun_append_of_ok {units : List TraceUnit} {p : Progress σ}
    {log : List GeneratedTrace} (h : (recordedRun apps config answer units p log).1.1 = .ok ())
    (more : List TraceUnit) :
    recordedRun apps config answer (units ++ more) p log =
      recordedRun apps config answer more (recordedRun apps config answer units p log).1.2
        (recordedRun apps config answer units p log).2 := by
  rw [recordedRun_append]
  generalize recordedRun apps config answer units p log = run at h ⊢
  obtain ⟨⟨result, q⟩, taken⟩ := run
  obtain rfl : result = .ok () := h
  rfl

end Append

/-! ## §2 — what lies behind a run -/

/-- Progress with the counts of an earlier run. -/
def Progress.behind {σ : Type} (p : Progress σ) (r : Report) : Progress σ :=
  { p with report := r + p.report }

/-- An outcome with the counts of an earlier run. -/
def UnitOutcome.behind {σ : Type} (r : Report) : UnitOutcome σ → UnitOutcome σ
  | .fail e p => .fail e (p.behind r)
  | .skip p => .skip (p.behind r)
  | .emit t p => .emit t (p.behind r)

namespace Progress

variable {σ : Type} (p : Progress σ) (r : Report) (source : σ) (t : GeneratedTrace)

theorem countMismatch_behind :
    (p.behind r).countMismatch source = (p.countMismatch source).behind r := by
  unfold countMismatch behind
  rw [Report.add_assoc]

theorem countDropped_behind :
    (p.behind r).countDropped source t = (p.countDropped source t).behind r := by
  unfold countDropped behind
  rw [Report.add_assoc]

theorem countBuilt_behind :
    (p.behind r).countBuilt source t = (p.countBuilt source t).behind r := by
  unfold countBuilt behind
  rw [Report.add_assoc]

theorem listWritten_behind : (p.behind r).listWritten t = (p.listWritten t).behind r := by
  unfold listWritten behind
  rw [Report.add_assoc]

end Progress

section Behind

variable {σ : Type} [RandomSource σ] (apps : AppTable) (config : Config)

/-- A step adds to the counts and does not look at them. -/
theorem processUnit_behind (unit : TraceUnit) (p : Progress σ) (r : Report) :
    processUnit apps config unit (p.behind r) = (processUnit apps config unit p).behind r := by
  unfold processUnit
  rw [show (p.behind r).source = p.source from rfl]
  generalize buildTrace apps config.provisioning config.durationMs unit p.source = built
  obtain ⟨result, source⟩ := built
  cases result with
  | error e =>
    cases e with
    | schemaMismatch => exact congrArg UnitOutcome.skip (p.countMismatch_behind r source)
    | _ => rfl
  | ok t =>
    dsimp only
    split
    · exact congrArg UnitOutcome.skip (p.countDropped_behind r source t)
    · exact congrArg (UnitOutcome.emit t) (p.countBuilt_behind r source t)

/-- **What lies behind a run is carried along**, if the sink takes everything: the counts of an
earlier run and the traces that it handed over. -/
theorem recordedRun_takeAll_behind (units : List TraceUnit) (p : Progress σ) (r : Report)
    (earlier log : List GeneratedTrace) :
    recordedRun apps config takeAll units (p.behind r) (earlier ++ log) =
      let run := recordedRun apps config takeAll units p log
      ((run.1.1, run.1.2.behind r), earlier ++ run.2) := by
  induction units generalizing p log with
  | nil => rfl
  | cons unit units ih =>
    have hstep := processUnit_behind apps config unit p r
    cases hout : processUnit apps config unit p with
    | fail e q =>
      rw [hout] at hstep
      rw [recordedRun_of_fail takeAll hstep, recordedRun_of_fail takeAll hout]
    | skip q =>
      rw [hout] at hstep
      rw [recordedRun_of_skip takeAll hstep, recordedRun_of_skip takeAll hout]
      exact ih q log
    | emit t q =>
      rw [hout] at hstep
      rw [recordedRun_of_emit takeAll hstep, recordedRun_of_emit takeAll hout,
        q.listWritten_behind r t, List.append_assoc]
      exact ih (q.listWritten t) (log ++ [t])

end Behind

/-! ## §3 — two lists of observations -/

namespace TraceUnit

variable {xs ys : List Observation}

/-- Observations of other functions do not join a group. -/
theorem filter_function_append_left (h : ∀ x ∈ xs, ∀ y ∈ ys, x.function ≠ y.function)
    {function : String} (hf : function ∈ xs.map (·.function)) :
    (xs ++ ys).filter (fun o => o.function = function) =
      xs.filter fun o => o.function = function := by
  obtain ⟨x, hx, rfl⟩ := List.mem_map.mp hf
  have hnone : ys.filter (fun o => o.function = x.function) = [] := by
    rw [List.filter_eq_nil_iff]
    intro y hy heq
    exact h x hx y hy (of_decide_eq_true heq).symm
  rw [List.filter_append, hnone, List.append_nil]

theorem filter_function_append_right (h : ∀ x ∈ xs, ∀ y ∈ ys, x.function ≠ y.function)
    {function : String} (hf : function ∈ ys.map (·.function)) :
    (xs ++ ys).filter (fun o => o.function = function) =
      ys.filter fun o => o.function = function := by
  obtain ⟨y, hy, rfl⟩ := List.mem_map.mp hf
  have hnone : xs.filter (fun o => o.function = y.function) = [] := by
    rw [List.filter_eq_nil_iff]
    intro x hx heq
    exact h x hx y hy (of_decide_eq_true heq)
  rw [List.filter_append, hnone, List.nil_append]

/-- **New functions come behind the old ones.** -/
theorem groupByFunction_append (h : ∀ x ∈ xs, ∀ y ∈ ys, x.function ≠ y.function) :
    groupByFunction (xs ++ ys) = groupByFunction xs ++ groupByFunction ys := by
  -- no function of the second list was seen in the first
  have hnew : (ys.map (·.function)).removeAll (xs.map (·.function)) = ys.map (·.function) := by
    unfold List.removeAll
    rw [List.filter_eq_self]
    intro function hf
    obtain ⟨y, hy, rfl⟩ := List.mem_map.mp hf
    rw [Bool.not_eq_true', Bool.eq_false_iff]
    intro hmem
    obtain ⟨x, hx, heq⟩ := List.mem_map.mp (List.mem_of_elem_eq_true hmem)
    exact h x hx y hy heq
  unfold groupByFunction
  rw [List.map_append, List.eraseDups_append, hnew, List.map_append]
  congr 1
  · apply List.map_congr_left
    intro function hf
    rw [filter_function_append_left h (List.mem_eraseDups.mp hf)]
  · apply List.map_congr_left
    intro function hf
    rw [filter_function_append_right h (List.mem_eraseDups.mp hf)]

end TraceUnit

/-- **The units of two lists.** -/
theorem Config.units_append {config : Config} {xs ys : List Observation}
    (h : config.mode = .continuous → ∀ x ∈ xs, ∀ y ∈ ys, x.function ≠ y.function) :
    config.units (xs ++ ys) = config.units xs ++ config.units ys := by
  unfold units TraceUnit.ofObservations
  cases hmode : config.mode with
  | daily => exact List.map_append
  | continuous =>
    dsimp only
    rw [TraceUnit.groupByFunction_append (h hmode), List.map_append]

/-! ## §4 — two generations -/

section Run

variable {σ : Type} [RandomSource σ] {apps : AppTable} {config : Config}

/-- **Generation goes list by list.** All applications are known and, in continuous mode, no
function is in both lists.  Then a generation over two lists of observations is one over the first
and, with the state and the index that it leaves, one over the second: the sink gets the traces of
both in a row, and the report is the sum of both reports.  What the first list produces does not
depend on what is appended to it. -/
theorem generateTraces_append {xs ys : List Observation}
    (hxs : ∀ x ∈ xs, apps.Knows x.app) (hys : ∀ y ∈ ys, apps.Knows y.app)
    (hnew : config.mode = .continuous → ∀ x ∈ xs, ∀ y ∈ ys, x.function ≠ y.function)
    (source : σ) (index : AuditIndex) :
    let first := (generateTraces apps config (recorder takeAll) xs source index).run []
    let second := (generateTraces apps config (recorder takeAll) ys first.1.2.source
      first.1.2.index).run []
    let whole := (generateTraces apps config (recorder takeAll) (xs ++ ys) source index).run []
    (first.1.1 = .ok () ∧ second.1.1 = .ok () ∧ whole.1.1 = .ok ()) ∧
      whole.2 = first.2 ++ second.2 ∧
      whole.1.2 = ⟨first.1.2.report + second.1.2.report, second.1.2.source,
        second.1.2.index⟩ := by
  intro first second whole
  have hfirst : first.1.1 = .ok () := generateTraces_ok_of_knows hxs
  have hsecond : second.1.1 = .ok () := generateTraces_ok_of_knows hys
  -- the second run starts with the counts and the traces of the first behind it
  have hbehind : first.1.2 =
      (Progress.initial first.1.2.source first.1.2.index).behind first.1.2.report := by
    unfold Progress.initial Progress.behind
    rw [Report.add_empty]
  have hwhole : whole = ((second.1.1, second.1.2.behind first.1.2.report),
      first.2 ++ second.2) := by
    calc whole
        = recordedRun apps config takeAll (config.units xs ++ config.units ys)
            (.initial source index) [] := by
          rw [← Config.units_append hnew]
          rfl
      _ = recordedRun apps config takeAll (config.units ys) first.1.2 first.2 :=
          recordedRun_append_of_ok apps config takeAll hfirst _
      _ = recordedRun apps config takeAll (config.units ys)
            ((Progress.initial first.1.2.source first.1.2.index).behind first.1.2.report)
            (first.2 ++ []) := by
          rw [List.append_nil, ← hbehind]
      _ = _ := recordedRun_takeAll_behind apps config _ _ _ _ _
  rw [hwhole]
  exact ⟨⟨hfirst, hsecond, hsecond⟩, rfl, rfl⟩

end Run

/-- A week of an idle function, and behind it a week of another one. -/
theorem generateTraces_append_idle :
    ((∀ x ∈ [idleObservation], idleTable.Knows x.app) ∧
      (∀ y ∈ [otherObservation], idleTable.Knows y.app) ∧
      ∀ x ∈ [idleObservation], ∀ y ∈ [otherObservation], x.function ≠ y.function) ∧
    let first := (generateTraces idleTable .standard (recorder takeAll) [idleObservation]
      (WordCycle.ofList [1]) (.ofTable idleTable)).run []
    let whole := (generateTraces idleTable .standard (recorder takeAll)
      [idleObservation, otherObservation] (WordCycle.ofList [1]) (.ofTable idleTable)).run []
    whole.1.1 = .ok () ∧ first.2 <+: whole.2 := by
  have hx : ∀ x ∈ [idleObservation], idleTable.Knows x.app :=
    List.forall_mem_singleton.mpr idleTable_knows
  have hy : ∀ y ∈ [otherObservation], idleTable.Knows y.app :=
    List.forall_mem_singleton.mpr idleTable_knows
  have hnew : ∀ x ∈ [idleObservation], ∀ y ∈ [otherObservation], x.function ≠ y.function :=
    List.forall_mem_singleton.mpr (List.forall_mem_singleton.mpr (by decide))
  obtain ⟨⟨-, -, hok⟩, htraces, -⟩ := generateTraces_append hx hy (fun _ => hnew)
    (WordCycle.ofList [1]) (.ofTable idleTable)
  exact ⟨⟨hx, hy, hnew⟩, hok, ⟨_, htraces.symm⟩⟩

end WorkloadSynth
