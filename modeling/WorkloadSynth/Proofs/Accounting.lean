import WorkloadSynth.Proofs.Fates

/-!
# The accounts of a run

The report of a run that ends well is a tally of the fates of its units: each step of the run books
one unit, and a whole run books all of them.  The tally balances, because every unit has exactly
one fate, and a daily unit is dropped for exactly one day.
-/

namespace WorkloadSynth

/-! ## §1 — adding reports -/

namespace Report

theorem add_def (a b : Report) :
    a + b = ⟨a.functions + b.functions, a.written + b.written, a.fitFailures + b.fitFailures,
      a.schemaMismatches + b.schemaMismatches, a.missingDays + b.missingDays⟩ := rfl

theorem add_assoc (a b c : Report) : a + b + c = a + (b + c) := by
  simp only [add_def, Nat.add_assoc]

theorem empty_add (a : Report) : empty + a = a := by
  simp only [add_def, empty, Nat.zero_add]

theorem add_empty (a : Report) : a + empty = a := by
  simp only [add_def, empty, Nat.add_zero]

/-- The total of a list of reports, one report at a time. -/
theorem total_cons (r : Report) (reports : List Report) :
    total (r :: reports) = r + total reports := by
  have hfold : ∀ a : Report, reports.foldl (· + ·) a = a + total reports := by
    unfold total
    induction reports with
    | nil => exact fun a => (add_empty a).symm
    | cons b reports ih =>
      intro a
      rw [List.foldl_cons, List.foldl_cons, ih (a + b), ih (empty + b), empty_add, add_assoc]
  show reports.foldl (· + ·) (empty + r) = _
  rw [hfold, empty_add]

theorem written_total_le {reports : List Report} (h : ∀ r ∈ reports, r.written ≤ r.functions) :
    (total reports).written ≤ (total reports).functions := by
  induction reports with
  | nil => exact Nat.le_refl 0
  | cons r reports ih =>
    rw [total_cons]
    exact Nat.add_le_add (h r List.mem_cons_self) (ih fun s hs => h s (List.mem_cons_of_mem _ hs))

/-- Differences can be added as long as none of them is cut off at zero. -/
theorem skipped_total {reports : List Report} (h : ∀ r ∈ reports, r.written ≤ r.functions) :
    (total reports).skipped = (reports.map (·.skipped)).sum := by
  induction reports with
  | nil => rfl
  | cons r reports ih =>
    have hr := h r List.mem_cons_self
    have htail : ∀ s ∈ reports, s.written ≤ s.functions :=
      fun s hs => h s (List.mem_cons_of_mem _ hs)
    have hle := written_total_le htail
    rw [List.map_cons, List.sum_cons, ← ih htail, total_cons]
    simp only [skipped, add_def]
    omega

end Report

/-! ## §2 — the tally of fates -/

section Tally

variable (apps : AppTable) (config : Config)

/-- How many units have a given fate. -/
def countFate (fate : Fate) (units : List TraceUnit) : Nat :=
  units.countP fun unit => unit.fate apps config = fate

/-- The fallback days of all units that fit the grid. -/
def fallbackDaysIn (units : List TraceUnit) : Nat :=
  ((units.filter fun unit => unit.fate apps config ≠ .misfit).map (·.fallbackDays)).sum

/-- The report of a run over some units that wrote some of them. -/
def tally (units : List TraceUnit) (sent : List (TraceUnit × GeneratedTrace)) : Report where
  functions := units.length
  written := sent.length
  fitFailures := fallbackDaysIn apps config units
  schemaMismatches := countFate apps config .misfit units
  missingDays := (sent.map (·.1.missingDays)).sum

variable {apps config} {unit : TraceUnit} (units : List TraceUnit)

theorem countFate_cons (fate : Fate) :
    countFate apps config fate (unit :: units) =
      countFate apps config fate units + if unit.fate apps config = fate then 1 else 0 := by
  unfold countFate
  rw [List.countP_cons]
  simp only [decide_eq_true_eq]

theorem fallbackDaysIn_cons_of_misfit (h : unit.fate apps config = .misfit) :
    fallbackDaysIn apps config (unit :: units) = fallbackDaysIn apps config units := by
  unfold fallbackDaysIn
  rw [List.filter_cons_of_neg]
  simpa using h

theorem fallbackDaysIn_cons_of_fits (h : unit.fate apps config ≠ .misfit) :
    fallbackDaysIn apps config (unit :: units) =
      unit.fallbackDays + fallbackDaysIn apps config units := by
  unfold fallbackDaysIn
  rw [List.filter_cons_of_pos (by simpa using h), List.map_cons, List.sum_cons]

/-- The entry of a unit that does not fit the grid. -/
theorem tally_cons_of_misfit (h : unit.fate apps config = .misfit)
    (sent : List (TraceUnit × GeneratedTrace)) :
    tally apps config (unit :: units) sent =
      { Report.empty with functions := 1, schemaMismatches := 1 } +
        tally apps config units sent := by
  simp only [tally, Report.add_def, Report.empty, Report.mk.injEq, List.length_cons,
    countFate_cons, fallbackDaysIn_cons_of_misfit units h, if_pos h]
  omega

/-- The entry of a unit that fits the grid, before its trace goes to the sink. -/
theorem tally_cons_of_fits (h : unit.fate apps config ≠ .misfit)
    (sent : List (TraceUnit × GeneratedTrace)) :
    tally apps config (unit :: units) sent =
      { Report.empty with functions := 1, fitFailures := unit.fallbackDays } +
        tally apps config units sent := by
  simp only [tally, Report.add_def, Report.empty, Report.mk.injEq, List.length_cons,
    countFate_cons, fallbackDaysIn_cons_of_fits units h, if_neg h, true_and]
  omega

/-- The entry of a trace that goes to the sink. -/
theorem tally_sent_cons (x : TraceUnit × GeneratedTrace)
    (sent : List (TraceUnit × GeneratedTrace)) :
    tally apps config units (x :: sent) =
      { Report.empty with written := 1, missingDays := x.1.missingDays } +
        tally apps config units sent := by
  simp only [tally, Report.add_def, Report.empty, Report.mk.injEq, List.length_cons,
    List.map_cons, List.sum_cons, and_true]
  omega

end Tally

section Course

variable {σ : Type} [RandomSource σ] {apps : AppTable} {config : Config}
  {units : List TraceUnit} {p q : Progress σ} {sent : List (TraceUnit × GeneratedTrace)}

/-- **A run books every unit once.** Each step adds the entry of its unit, whether there was a
trace or not. -/
theorem Completes.report (h : Completes apps config units p sent q) :
    q.report = p.report + tally apps config units sent := by
  induction h with
  | nil p => exact (Report.add_empty p.report).symm
  | @misfit unit units p q source sent hfate _ ih =>
    rw [ih, tally_cons_of_misfit units hfate, ← Report.add_assoc]
    rfl
  | @dropped unit units p q source t sent hfate ht _ ih =>
    have hfits : unit.fate apps config ≠ .misfit := by rw [hfate]; exact nofun
    rw [ih, tally_cons_of_fits units hfits, ← ht.fitFailures, ← Report.add_assoc]
    rfl
  | @written unit units p q source sent hfate ht _ ih =>
    have hfits : unit.fate apps config ≠ .misfit := by rw [hfate]; exact nofun
    rw [ih, tally_cons_of_fits units hfits, tally_sent_cons, ← ht.fitFailures, ← ht.missingDays]
    -- the entry is made in two parts, one before the sink answers and one after
    simp only [Progress.listWritten, Progress.countBuilt, Report.add_def, Report.empty,
      Report.mk.injEq]
    omega

/-- What was written are the traces of exactly the units with this fate, in order. -/
theorem Completes.sent_units (h : Completes apps config units p sent q) :
    sent.map (·.1) = units.filter fun unit => unit.fate apps config = .written := by
  induction h with
  | nil p => rfl
  | misfit hfate _ ih => rw [List.filter_cons_of_neg (by rw [hfate]; decide), ih]
  | dropped hfate _ _ ih => rw [List.filter_cons_of_neg (by rw [hfate]; decide), ih]
  | written hfate _ _ ih =>
    rw [List.filter_cons_of_pos (by rw [hfate]; decide), List.map_cons, ih]

theorem Completes.reports (h : Completes apps config units p sent q) {x : TraceUnit × GeneratedTrace}
    (hx : x ∈ sent) : x.2.Reports x.1 := by
  induction h with
  | nil p => exact absurd hx List.not_mem_nil
  | misfit _ _ ih => exact ih hx
  | dropped _ _ _ ih => exact ih hx
  | written _ ht _ ih =>
    rcases List.mem_cons.mp hx with rfl | hx
    · exact ht
    · exact ih hx

theorem Completes.mem_units (h : Completes apps config units p sent q) {x : TraceUnit × GeneratedTrace}
    (hx : x ∈ sent) : x.1 ∈ units := by
  have hmem : x.1 ∈ sent.map (·.1) := List.mem_map_of_mem hx
  rw [h.sent_units] at hmem
  exact List.mem_of_mem_filter hmem

/-- **Every unit has one of three fates** in a run that ends well. -/
theorem Completes.length_units (h : Completes apps config units p sent q) :
    units.length = sent.length + countFate apps config .misfit units +
      countFate apps config .dropped units := by
  induction h with
  | nil p => rfl
  | misfit hfate _ ih =>
    simp only [List.length_cons, countFate_cons, hfate, reduceCtorEq, if_true, if_false]
    omega
  | dropped hfate _ _ ih =>
    simp only [List.length_cons, countFate_cons, hfate, reduceCtorEq, if_true, if_false]
    omega
  | written hfate _ _ ih =>
    simp only [List.length_cons, countFate_cons, hfate, reduceCtorEq, if_false]
    omega

end Course

/-! ## §3 — daily and continuous runs -/

section Modes

variable {σ : Type} [RandomSource σ] {apps : AppTable} {config : Config} {unit : TraceUnit}

theorem fate_ne_dropped_of_continuous (hmode : config.mode = .continuous) :
    unit.fate apps config ≠ .dropped := by
  unfold TraceUnit.fate
  split
  · split <;> exact nofun
  · rw [if_neg (by rw [hmode]; exact nofun)]
    exact nofun

theorem countFate_dropped_of_continuous (hmode : config.mode = .continuous)
    (units : List TraceUnit) : countFate apps config .dropped units = 0 := by
  unfold countFate
  rw [List.countP_eq_zero]
  intro unit _ hfate
  exact fate_ne_dropped_of_continuous hmode (of_decide_eq_true hfate)

/-- A kept daily unit has no fallback day, and a dropped one has only one day. -/
theorem fallbackDays_of_daily (hmode : config.mode = .daily) (hcovers : unit.Covers config)
    (h : unit.fate apps config = .dropped ∨ unit.fate apps config = .written) :
    unit.fallbackDays = if unit.fate apps config = .dropped then 1 else 0 := by
  have hle : unit.fallbackDays ≤ unit.slots.length := List.countP_le_length
  have hone : unit.slots.length = 1 := by
    rw [hcovers]
    unfold Config.traceDays
    rw [hmode]
  have hfate : unit.fate apps config = if 0 < unit.fallbackDays then .dropped else .written := by
    unfold TraceUnit.fate at h ⊢
    cases hobs : unit.obstacle? apps config.durationMs with
    | none => simp only [hmode, and_true]
    | some e =>
      rw [hobs] at h
      by_cases he : e.isMismatch = true
      · simp [he] at h
      · simp [he] at h
  by_cases hpos : 0 < unit.fallbackDays
  · rw [if_pos (hfate.trans (if_pos hpos))]
    omega
  · rw [if_neg (by rw [hfate, if_neg hpos]; exact nofun)]
    omega

/-- In a daily run the fallback days are the dropped units. -/
theorem Completes.fallbackDays_of_daily {units : List TraceUnit} {p q : Progress σ}
    {sent : List (TraceUnit × GeneratedTrace)} (h : Completes apps config units p sent q)
    (hmode : config.mode = .daily) (hcovers : ∀ unit ∈ units, unit.Covers config) :
    fallbackDaysIn apps config units = countFate apps config .dropped units := by
  have hone := fun (unit : TraceUnit) hunit => @WorkloadSynth.fallbackDays_of_daily apps config
    unit hmode hunit
  induction h with
  | nil p => rfl
  | @misfit unit units p q source sent hfate _ ih =>
    rw [fallbackDaysIn_cons_of_misfit units hfate, countFate_cons,
      ih fun u hu => hcovers u (List.mem_cons_of_mem _ hu), hfate, if_neg nofun]
    rfl
  | @dropped unit units p q source t sent hfate ht _ ih =>
    have hfits : unit.fate apps config ≠ .misfit := by rw [hfate]; exact nofun
    rw [fallbackDaysIn_cons_of_fits units hfits, countFate_cons,
      ih fun u hu => hcovers u (List.mem_cons_of_mem _ hu),
      hone unit (hcovers unit List.mem_cons_self) (.inl hfate), Nat.add_comm]
  | @written unit units p q source sent hfate ht _ ih =>
    have hfits : unit.fate apps config ≠ .misfit := by rw [hfate]; exact nofun
    rw [fallbackDaysIn_cons_of_fits units hfits, countFate_cons,
      ih fun u hu => hcovers u (List.mem_cons_of_mem _ hu),
      hone unit (hcovers unit List.mem_cons_self) (.inr hfate), Nat.add_comm]

/-- A daily unit is the observation of its only day. -/
theorem missingDays_of_daily (hmode : config.mode = .daily) {observations : List Observation}
    (h : unit ∈ config.units observations) : unit.missingDays = 0 := by
  unfold Config.units TraceUnit.ofObservations at h
  rw [hmode] at h
  obtain ⟨o, -, rfl⟩ := List.mem_map.mp h
  rfl

end Modes

/-! ## §4 — the balance -/

/-- Units that were dropped, as far as a report can tell: a daily unit is dropped for its only day,
and a continuous one never. -/
def Report.dropped (mode : TraceMode) (r : Report) : Nat :=
  match mode with
  | .daily => r.fitFailures
  | .continuous => 0

/-- What a report says about the units of a run and the traces that it handed over. -/
structure Report.Accounts (apps : AppTable) (config : Config) (units : List TraceUnit)
    (log : List GeneratedTrace) (r : Report) : Prop where
  functions : r.functions = units.length
  written : r.written = log.length
  mismatches : r.schemaMismatches = countFate apps config .misfit units
  dropped : r.dropped config.mode = countFate apps config .dropped units
  /-- Every unit was written, did not fit, or was dropped. -/
  conserved : r.functions = r.written + r.schemaMismatches + r.dropped config.mode
  /-- A unit that did not fit counts none of its days. -/
  fallbacks : r.fitFailures = fallbackDaysIn apps config units
  missing : r.missingDays = (log.map fun t => config.traceDays - t.contributingDays.length).sum
  contributing : ∀ t ∈ log, t.contributingDays.length ≤ config.traceDays
  daily : config.mode = .daily → r.missingDays = 0
  skipped : r.skipped = r.schemaMismatches + r.dropped config.mode

/-- A report that a run returned. -/
def Report.Returned (r : Report) : Prop :=
  ∃ (σ : Type) (_ : RandomSource σ) (apps : AppTable) (config : Config)
    (answer : List GeneratedTrace → GeneratedTrace → Except Error Unit)
    (observations : List Observation) (source : σ) (index : AuditIndex),
    let run := (generateTraces apps config (recorder answer) observations source index).run []
    run.1.1 = .ok () ∧ run.1.2.report = r

section Run

variable {σ : Type} [RandomSource σ] {apps : AppTable} {config : Config}

theorem Completes.accounts {observations : List Observation} {source : σ} {index : AuditIndex}
    {q : Progress σ} {sent : List (TraceUnit × GeneratedTrace)}
    (h : Completes apps config (config.units observations) (.initial source index) sent q) :
    q.report.Accounts apps config (config.units observations) (sent.map (·.2)) := by
  have hcovers : ∀ unit ∈ config.units observations, unit.Covers config :=
    fun unit hunit => Config.covers_of_mem_units hunit
  have hreport : q.report = tally apps config (config.units observations) sent :=
    h.report.trans (Report.empty_add _)
  have hlength := h.length_units
  have hdropped : q.report.dropped config.mode =
      countFate apps config .dropped (config.units observations) := by
    rw [hreport]
    cases hmode : config.mode with
    | daily => exact h.fallbackDays_of_daily hmode hcovers
    | continuous => exact (countFate_dropped_of_continuous hmode _).symm
  -- the days of a trace are observed or missing
  have hdays : ∀ x ∈ sent, x.1.missingDays + x.2.contributingDays.length = config.traceDays := by
    intro x hx
    rw [(h.reports hx).contributingDays, x.1.missingDays_add_observedDays]
    exact hcovers x.1 (h.mem_units hx)
  have hmissing : (sent.map (·.1.missingDays)).sum =
      ((sent.map (·.2)).map fun t => config.traceDays - t.contributingDays.length).sum := by
    rw [List.map_map]
    refine congrArg List.sum (List.map_congr_left fun x hx => ?_)
    have hx := hdays x hx
    show x.1.missingDays = config.traceDays - x.2.contributingDays.length
    omega
  refine ⟨by rw [hreport]; rfl, by rw [hreport, List.length_map]; rfl, by rw [hreport]; rfl,
    hdropped, ?_, by rw [hreport]; rfl, by rw [hreport]; exact hmissing, ?_, ?_, ?_⟩
  · rw [hdropped, hreport]
    exact hlength
  · intro t ht
    obtain ⟨x, hx, rfl⟩ := List.mem_map.mp ht
    have hx := hdays x hx
    omega
  · intro hmode
    rw [hreport]
    refine List.sum_eq_zero fun n hn => ?_
    obtain ⟨x, hx, rfl⟩ := List.mem_map.mp hn
    exact missingDays_of_daily hmode (h.mem_units hx)
  · unfold Report.skipped
    rw [hdropped, hreport]
    show (config.units observations).length - sent.length =
      countFate apps config .misfit _ + countFate apps config .dropped _
    omega

theorem accounts_of_ok {answer : List GeneratedTrace → GeneratedTrace → Except Error Unit}
    {observations : List Observation} {source : σ} {index : AuditIndex}
    (h : ((generateTraces apps config (recorder answer) observations source index).run []).1.1 =
      .ok ()) :
    let run := (generateTraces apps config (recorder answer) observations source index).run []
    run.1.2.report.Accounts apps config (config.units observations) run.2 := by
  obtain ⟨sent, hrun, hlog⟩ := completes_of_generateTraces_ok h
  intro run
  rw [show run.2 = sent.map (·.2) from hlog]
  exact hrun.accounts

/-- **The accounts of a run.** If a run ends well, every unit was written, did not fit the grid or
was dropped, and the report says how often; it counts the days without a fit and the missing days of
exactly the units that they belong to.  Reports of such runs can be added before or after the
skipped units are counted. -/
theorem generateTraces_accounts (apps : AppTable) (config : Config)
    (answer : List GeneratedTrace → GeneratedTrace → Except Error Unit)
    (observations : List Observation) (source : σ) (index : AuditIndex) :
    (let run := (generateTraces apps config (recorder answer) observations source index).run []
     run.1.1 = .ok () →
      run.1.2.report.Accounts apps config (config.units observations) run.2) ∧
    ∀ reports : List Report, (∀ r ∈ reports, r.Returned) →
      (Report.total reports).skipped = (reports.map (·.skipped)).sum := by
  refine ⟨fun h => accounts_of_ok h, ?_⟩
  intro reports hreports
  refine Report.skipped_total fun r hr => ?_
  -- what a run writes is part of what it looked at
  obtain ⟨σ', inst, apps', config', answer', observations', source', index', hok, rfl⟩ :=
    hreports r hr
  have hconserved := (accounts_of_ok hok).conserved
  omega

end Run

/-- A daily run over an idle function and a short timer drops the first and passes over the
second. -/
theorem generateTraces_accounts_idle :
    let config := { Config.standard with mode := .daily }
    let run := (generateTraces idleTable config (recorder takeAll) [idleObservation, shortTimer]
      (WordCycle.ofList [1]) (.ofTable idleTable)).run []
    (run.1.1 = .ok () ∧ run.1.2.report.Accounts idleTable config
        [.ofObservation idleObservation, .ofObservation shortTimer] run.2) ∧
      run.1.2.report.Returned ∧
      (Report.total [run.1.2.report, run.1.2.report]).skipped = 4 := by
  intro config run
  have hidle : (TraceUnit.ofObservation idleObservation).fate idleTable config = .dropped := by
    decide
  have hshort : (TraceUnit.ofObservation shortTimer).fate idleTable config = .misfit := by decide
  have hok : run.1.1 = .ok () := by
    apply generateTraces_ok_of_fates
    intro unit hunit e
    rcases List.mem_pair.mp hunit with rfl | rfl
    · rw [hidle]
      exact nofun
    · rw [hshort]
      exact nofun
  have hreturned : run.1.2.report.Returned := ⟨_, _, _, _, _, _, _, _, hok, rfl⟩
  obtain ⟨haccounts, htotal⟩ := generateTraces_accounts idleTable config takeAll
    [idleObservation, shortTimer] (WordCycle.ofList [1]) (.ofTable idleTable)
  have hskipped := (haccounts hok).skipped
  rw [(haccounts hok).mismatches, (haccounts hok).dropped] at hskipped
  have htwo : run.1.2.report.skipped = 2 := by
    refine hskipped.trans ?_
    show countFate _ _ _ [.ofObservation idleObservation, .ofObservation shortTimer] +
      countFate _ _ _ [.ofObservation idleObservation, .ofObservation shortTimer] = 2
    simp only [countFate, List.countP_cons, hidle, hshort]
    rfl
  refine ⟨⟨hok, haccounts hok⟩, hreturned, ?_⟩
  rw [htotal [run.1.2.report, run.1.2.report] (by simp [hreturned])]
  simp [htwo]

end WorkloadSynth
