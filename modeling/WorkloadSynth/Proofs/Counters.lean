import WorkloadSynth.Proofs.Accounting
import WorkloadSynth.Proofs.AuditIndex

/-!
# Counters that fit into words

A report counts at most one unit a step, and of each unit at most its days.  So the counters of a
run stay below a bound that is known before the run begins (`generateTraces_within`).  Where the
bounds of all runs together fit into a word, `Report.Fits` holds of the sum of their reports, and
words count the same as numbers (`wordReport_total_agrees`).
-/

namespace WorkloadSynth

/-- The most that a report can count of `n` units of so many days each. -/
structure Report.Within (r : Report) (n days : Nat) : Prop where
  functions : r.functions ≤ n
  written : r.written ≤ n
  fitFailures : r.fitFailures ≤ n * days
  schemaMismatches : r.schemaMismatches ≤ n
  missingDays : r.missingDays ≤ n * days

namespace Report.Within

variable {a b r : Report} {m n days : Nat}

theorem empty (days : Nat) : Report.empty.Within 0 days :=
  ⟨Nat.le_refl 0, Nat.le_refl 0, Nat.zero_le _, Nat.le_refl 0, Nat.zero_le _⟩

theorem add (ha : a.Within m days) (hb : b.Within n days) : (a + b).Within (m + n) days where
  functions := Nat.add_le_add ha.functions hb.functions
  written := Nat.add_le_add ha.written hb.written
  fitFailures := (Nat.add_le_add ha.fitFailures hb.fitFailures).trans_eq (Nat.add_mul ..).symm
  schemaMismatches := Nat.add_le_add ha.schemaMismatches hb.schemaMismatches
  missingDays := (Nat.add_le_add ha.missingDays hb.missingDays).trans_eq (Nat.add_mul ..).symm

theorem mono (h : r.Within m days) (hle : m ≤ n) : r.Within n days where
  functions := h.functions.trans hle
  written := h.written.trans hle
  fitFailures := h.fitFailures.trans (Nat.mul_le_mul_right days hle)
  schemaMismatches := h.schemaMismatches.trans hle
  missingDays := h.missingDays.trans (Nat.mul_le_mul_right days hle)

/-- The largest counters are those of days, or those of units where there are no days. -/
theorem fits (h : r.Within n days) (hwords : n * max 1 days < 2 ^ 64) : r.Fits := by
  have hunits : n < 2 ^ 64 :=
    Nat.lt_of_le_of_lt (Nat.le_mul_of_pos_right n (Nat.le_max_left 1 days)) hwords
  have hdays : n * days < 2 ^ 64 :=
    Nat.lt_of_le_of_lt (Nat.mul_le_mul_left n (Nat.le_max_right 1 days)) hwords
  exact ⟨h.functions.trans_lt hunits, h.written.trans_lt hunits, h.fitFailures.trans_lt hdays,
    h.schemaMismatches.trans_lt hunits, h.missingDays.trans_lt hdays⟩

/-- The sum of several reports counts the units of all of them. -/
theorem total {reports : List Report} {counts : List Nat}
    (h : List.Forall₂ (fun r n => r.Within n days) reports counts) :
    (Report.total reports).Within counts.sum days := by
  induction h with
  | nil => exact .empty days
  | cons hr _ ih =>
    rw [Report.total_cons, List.sum_cons]
    exact hr.add ih

end Report.Within

/-! ## §1 — one unit -/

section Step

variable {σ : Type} [RandomSource σ] {apps : AppTable} {config : Config} {unit : TraceUnit}
  {p p' : Progress σ} {t : GeneratedTrace} {n : Nat}

/-- The counters of a trace are counts of its days. -/
theorem GeneratedTrace.Reports.within (ht : t.Reports unit) (hcovers : unit.Covers config) :
    ({ Report.empty with
      functions := 1, fitFailures := t.fitFailures, missingDays := t.missingDays } :
      Report).Within 1 config.traceDays := by
  refine ⟨Nat.le_refl 1, Nat.zero_le 1, ?_, Nat.zero_le 1, ?_⟩
  · rw [ht.fitFailures, Nat.one_mul, ← hcovers]
    exact List.countP_le_length
  · rw [ht.missingDays, Nat.one_mul, ← hcovers]
    exact List.countP_le_length

/-- **The step lemma.** Whatever becomes of a unit, it adds one unit to the bound at most, before the
sink answers and after. -/
theorem processUnit_within (hcovers : unit.Covers config)
    (hp : p.report.Within n config.traceDays) :
    match processUnit apps config unit p with
    | .fail _ p' => p'.report.Within (n + 1) config.traceDays
    | .skip p' => p'.report.Within (n + 1) config.traceDays
    | .emit t p' => p'.report.Within (n + 1) config.traceDays ∧
        (p'.listWritten t).report.Within (n + 1) config.traceDays := by
  have hstep := fateOutcome_processUnit apps config unit p
  generalize processUnit apps config unit p = out at hstep ⊢
  cases hstep with
  | aborts e source hfate => exact hp.mono (Nat.le_succ n)
  | misfit source hfate =>
    exact hp.add ⟨Nat.le_refl 1, Nat.zero_le 1, Nat.zero_le _, Nat.le_refl 1, Nat.zero_le _⟩
  | dropped source hfate ht =>
    have hentry := ht.within hcovers
    exact hp.add ⟨Nat.le_refl 1, Nat.zero_le 1, hentry.fitFailures, Nat.zero_le 1, Nat.zero_le _⟩
  | written source hfate ht =>
    have hentry := ht.within hcovers
    refine ⟨hp.add hentry, ?_⟩
    -- the trace is counted in a second entry, but it belongs to the same unit
    show ((p.report + _) + _ : Report).Within (n + 1) config.traceDays
    rw [Report.add_assoc]
    exact hp.add ⟨Nat.le_refl 1, Nat.le_refl 1, hentry.fitFailures, Nat.zero_le 1,
      hentry.missingDays⟩

end Step

/-! ## §2 — a whole run -/

section Run

variable {σ : Type} [RandomSource σ] (apps : AppTable) (config : Config)
  (answer : List GeneratedTrace → GeneratedTrace → Except Error Unit)

theorem recordedRun_within {units : List TraceUnit} {p : Progress σ} {n : Nat}
    (hcovers : ∀ unit ∈ units, unit.Covers config) (hp : p.report.Within n config.traceDays)
    (log : List GeneratedTrace) :
    (recordedRun apps config answer units p log).1.2.report.Within (n + units.length)
      config.traceDays := by
  induction units generalizing p n log with
  | nil => exact hp
  | cons unit units ih =>
    have hrest : ∀ u ∈ units, u.Covers config := fun u hu => hcovers u (List.mem_cons_of_mem _ hu)
    have hlength : n + (unit :: units).length = n + 1 + units.length := by
      rw [List.length_cons]
      omega
    have hstep := @processUnit_within σ _ apps config unit p n (hcovers unit List.mem_cons_self) hp
    rw [hlength]
    cases hout : processUnit apps config unit p with
    | fail e p' =>
      rw [hout] at hstep
      rw [recordedRun_of_fail answer hout]
      exact hstep.mono (Nat.le_add_right _ _)
    | skip p' =>
      rw [hout] at hstep
      rw [recordedRun_of_skip answer hout]
      exact ih hrest hstep log
    | emit t p' =>
      rw [hout] at hstep
      rw [recordedRun_of_emit answer hout]
      cases answer log t with
      | error e => exact hstep.1.mono (Nat.le_add_right _ _)
      | ok u => exact ih hrest hstep.2 _

/-- Every unit has an observation of its own. -/
theorem Config.length_units_le (config : Config) (observations : List Observation) :
    (config.units observations).length ≤ observations.length := by
  unfold units TraceUnit.ofObservations
  cases config.mode with
  | daily => exact (List.length_map _).le
  | continuous =>
    unfold TraceUnit.groupByFunction
    rw [List.length_map, List.length_map]
    have hfunctions : ((observations.map (·.function)).eraseDups).Subperm
        (observations.map (·.function)) :=
      List.subperm_of_subset (nodup_eraseDups _) fun _ h => List.mem_eraseDups.mp h
    exact hfunctions.length_le.trans_eq (List.length_map _)

/-- **The bound of a run** is known before it begins, and it does not matter how the run ends. -/
theorem generateTraces_within (observations : List Observation) (source : σ)
    (index : AuditIndex) :
    ((generateTraces apps config (recorder answer) observations source index).run
      []).1.2.report.Within observations.length config.traceDays := by
  have hrun : ((generateTraces apps config (recorder answer) observations source index).run
      []).1.2.report.Within (0 + (config.units observations).length) config.traceDays :=
    recordedRun_within apps config answer (fun unit hunit => Config.covers_of_mem_units hunit)
      (Report.Within.empty config.traceDays) []
  rw [Nat.zero_add] at hrun
  exact hrun.mono (config.length_units_le observations)

end Run

/-- **Counting in words.** Reports of any number of runs are the same in words as in numbers, as
long as there are not too many observations in all of them for the days that they may count. -/
theorem wordReport_total_agrees {reports : List Report} {counts : List Nat} {days : Nat}
    (h : List.Forall₂ (fun r n => r.Within n days) reports counts)
    (hwords : counts.sum * max 1 days < 2 ^ 64) :
    (WordReport.total (reports.map .ofReport)).toReport = Report.total reports ∧
      (WordReport.total (reports.map .ofReport)).skipped.toNat =
        (Report.total reports).skipped :=
  WordReport.total_agrees ((Report.Within.total h).fits hwords)

end WorkloadSynth
