import WorkloadSynth.Proofs.Concatenation
import WorkloadSynth.Proofs.TwoRuns

/-!
# Daily runs and continuous runs of one day

Observations of the first day, one of each function, make the same slots in both modes; the units
have other names.  A daily run and a continuous run over them see the same states of the random
source, and they part only where a fit fails: the daily run drops the trace and the continuous one
keeps it (`EvenOutcomes`).  So the daily run hands over what the continuous run hands over, less the
traces without a fit (`generateTraces_oneDay`).
-/

namespace WorkloadSynth

/-! ## §1 — units of one day -/

/-- The daily run of a configuration. -/
def Config.daily (config : Config) : Config := { config with mode := .daily }

/-- The continuous run of a configuration, cut to its first day. -/
def Config.oneDay (config : Config) : Config := { config with mode := .continuous, days := 1 }

namespace Config

variable (config : Config) {observations : List Observation}

theorem units_oneDay_singleton {o : Observation} (hday : o.day = 1) :
    config.oneDay.units [o] = [⟨o.id, [some o]⟩] := by
  have hgroup : TraceUnit.groupByFunction [o] = [(o.function, [o])] := by
    simp [TraceUnit.groupByFunction, List.eraseDups_cons]
  have harrange : TraceUnit.arrange [o] 1 = [some o] := by
    simp [TraceUnit.arrange, hday]
  show (TraceUnit.groupByFunction [o]).map (TraceUnit.ofGroup 1) = _
  rw [hgroup, List.map_singleton, TraceUnit.ofGroup, harrange]
  rfl

/-- Functions that were observed once are units of their own. -/
theorem units_oneDay (hfunctions : (observations.map (·.function)).Nodup)
    (hday : ∀ o ∈ observations, o.day = 1) :
    config.oneDay.units observations = observations.map fun o => ⟨o.id, [some o]⟩ := by
  induction observations with
  | nil => rfl
  | cons o observations ih =>
    rw [List.map_cons, List.nodup_cons] at hfunctions
    obtain ⟨hnew, hfunctions⟩ := hfunctions
    obtain ⟨ho, hday⟩ := List.forall_mem_cons.mp hday
    -- no other observation joins the group of the first
    have happend : config.oneDay.units ([o] ++ observations) =
        config.oneDay.units [o] ++ config.oneDay.units observations := by
      apply units_append
      intro _ x hx y hy heq
      rw [List.mem_singleton.mp hx] at heq
      exact hnew (heq ▸ List.mem_map_of_mem hy)
    rw [← List.singleton_append, happend, config.units_oneDay_singleton ho, ih hfunctions hday,
      List.map_append, List.map_singleton]

end Config

/-- Two units that are made from the same slots. -/
def TraceUnit.SameSlots (unit unit' : TraceUnit) : Prop := unit.slots = unit'.slots

/-- **Both modes make the same slots** from observations of one day. -/
theorem units_sameSlots (config : Config) {observations : List Observation}
    (hfunctions : (observations.map (·.function)).Nodup)
    (hday : ∀ o ∈ observations, o.day = 1) :
    List.Forall₂ TraceUnit.SameSlots (config.daily.units observations)
      (config.oneDay.units observations) := by
  rw [config.units_oneDay hfunctions hday]
  show List.Forall₂ _ (observations.map TraceUnit.ofObservation) _
  rw [List.forall₂_map_left_iff, List.forall₂_map_right_iff, List.forall₂_same]
  intro o _
  rfl

/-! ## §2 — one unit in both modes -/

/-- A trace without its name. -/
def GeneratedTrace.unnamed (t : GeneratedTrace) : GeneratedTrace := { t with name := "" }

/-- Two traces that agree in everything but their names. -/
def GeneratedTrace.SameButName (t t' : GeneratedTrace) : Prop := t.unnamed = t'.unnamed

theorem GeneratedTrace.SameButName.fitFailures {t t' : GeneratedTrace} (h : t.SameButName t') :
    t.fitFailures = t'.fitFailures := by
  unfold SameButName at h
  exact congrArg (·.fitFailures) h

/-- Two runs that come equally far, as far as it does not depend on what was written. -/
structure Progress.Even {σ : Type} (p q : Progress σ) : Prop where
  source : p.source = q.source
  functions : p.report.functions = q.report.functions
  fitFailures : p.report.fitFailures = q.report.fitFailures
  schemaMismatches : p.report.schemaMismatches = q.report.schemaMismatches

namespace Progress.Even

variable {σ : Type} {p q : Progress σ}

theorem countMismatch (h : p.Even q) (s : σ) : (p.countMismatch s).Even (q.countMismatch s) :=
  ⟨rfl, congrArg (· + 1) h.functions, h.fitFailures, congrArg (· + 1) h.schemaMismatches⟩

/-- A trace counts its fallback days, whether it is kept or dropped. -/
theorem countDropped (h : p.Even q) (s : σ) {t t' : GeneratedTrace} (ht : t.SameButName t') :
    (p.countDropped s t).Even (q.countBuilt s t') :=
  ⟨rfl, congrArg (· + 1) h.functions, congrArg₂ (· + ·) h.fitFailures ht.fitFailures,
    h.schemaMismatches⟩

theorem countBuilt (h : p.Even q) (s : σ) {t t' : GeneratedTrace} (ht : t.SameButName t') :
    (p.countBuilt s t).Even (q.countBuilt s t') :=
  ⟨rfl, congrArg (· + 1) h.functions, congrArg₂ (· + ·) h.fitFailures ht.fitFailures,
    h.schemaMismatches⟩

theorem listWritten_left (h : p.Even q) (t : GeneratedTrace) : (p.listWritten t).Even q :=
  ⟨h.source, h.functions, h.fitFailures, h.schemaMismatches⟩

theorem listWritten_right (h : p.Even q) (t : GeneratedTrace) : p.Even (q.listWritten t) :=
  ⟨h.source, h.functions, h.fitFailures, h.schemaMismatches⟩

end Progress.Even

/-- The outcomes of a unit in a daily and in a continuous run. -/
inductive EvenOutcomes {σ : Type} : UnitOutcome σ → UnitOutcome σ → Prop where
  | fail {p q : Progress σ} (e : Error) (h : p.Even q) : EvenOutcomes (.fail e p) (.fail e q)
  | skip {p q : Progress σ} (h : p.Even q) : EvenOutcomes (.skip p) (.skip q)
  /-- The continuous run keeps what the daily run drops. -/
  | drop {p q : Progress σ} {t' : GeneratedTrace} (ht : t'.fitFailures ≠ 0) (h : p.Even q) :
      EvenOutcomes (.skip p) (.emit t' q)
  | emit {p q : Progress σ} {t t' : GeneratedTrace} (ht : t'.fitFailures = 0)
      (htt : t.SameButName t') (h : p.Even q) : EvenOutcomes (.emit t p) (.emit t' q)

section Step

variable {σ : Type} [RandomSource σ] (apps : AppTable) {unit unit' : TraceUnit}

/-- Slots decide about everything but the name of a trace. -/
theorem buildTrace_sameSlots (h : unit.SameSlots unit') (provisioning : Provisioning)
    {duration : UInt64} (hsize : unit.slots.length * minutesPerDay = gridSize duration minuteMs)
    (s : σ) :
    ResultTwins GeneratedTrace.SameButName (buildTrace apps provisioning duration unit s)
      (buildTrace apps provisioning duration unit' s) := by
  unfold TraceUnit.SameSlots at h
  unfold buildTrace
  rw [grid_minuteMs, ← h]
  rcases stitch_cases apps unit.slots s with ⟨hall, hst⟩ | ⟨d, e, -, hst⟩
  · have hlen : (Stitched.mk (segmentsFrom apps unit.slots s)).columns.OfLength
        (minuteGrid (gridSize duration minuteMs)).length := by
      rw [minuteGrid_length, ← hsize]
      exact (Stitched.ofDays_segmentsFrom hall s).length
    simp only [hst, assemble_of_length hlen]
    exact .ok rfl
  · simp only [hst]
    exact .error

/-- **One unit in both modes.** -/
theorem processUnit_even (config : Config) (h : unit.SameSlots unit')
    (hcovers : unit.Covers config.daily) {p q : Progress σ} (hpq : p.Even q) :
    EvenOutcomes (processUnit apps config.daily unit p)
      (processUnit apps config.oneDay unit' q) := by
  have hfits : config.daily.traceDays * 86400000 < 2 ^ 64 := by
    rw [show config.daily.traceDays = 1 from rfl]
    decide
  have hsize : unit.slots.length * minutesPerDay =
      gridSize config.daily.durationMs minuteMs := by
    rw [hcovers, gridSize_durationMs hfits]
  have hbuild := buildTrace_sameSlots apps h config.daily.provisioning hsize p.source
  unfold processUnit
  -- both modes build traces of the same duration, from the same state
  rw [← hpq.source, show config.oneDay.provisioning = config.daily.provisioning from rfl,
    show config.oneDay.durationMs = config.daily.durationMs from rfl]
  generalize buildTrace apps config.daily.provisioning config.daily.durationMs unit p.source = r
    at hbuild ⊢
  generalize buildTrace apps config.daily.provisioning config.daily.durationMs unit' p.source = r'
    at hbuild ⊢
  cases hbuild with
  | @error e s =>
    cases e with
    | schemaMismatch => exact .skip (hpq.countMismatch s)
    | _ => exact .fail _ ⟨rfl, hpq.functions, hpq.fitFailures, hpq.schemaMismatches⟩
  | @ok t t' s ht =>
    have hwhole : t'.Kept config.oneDay := .inr rfl
    have hdaily : t.Kept config.daily ↔ t'.fitFailures = 0 := by
      unfold GeneratedTrace.Kept
      rw [ht.fitFailures, or_iff_left (show config.daily.mode ≠ .continuous from nofun)]
    dsimp only
    rw [if_neg (mt (not_kept_iff config.oneDay t').mp (not_not_intro hwhole))]
    by_cases hfit : t'.fitFailures = 0
    · rw [if_neg (mt (not_kept_iff config.daily t).mp (not_not_intro (hdaily.mpr hfit)))]
      exact .emit hfit ht (hpq.countBuilt s ht)
    · rw [if_pos ((not_kept_iff config.daily t).mpr (mt hdaily.mp hfit))]
      exact .drop hfit (hpq.countDropped s ht)

end Step

/-! ## §3 — runs in both modes -/

/-- The traces of a log without a fallback day. -/
def fitted (log : List GeneratedTrace) : List GeneratedTrace :=
  log.filter fun t => t.fitFailures = 0

section Run

variable {σ : Type} [RandomSource σ] {apps : AppTable} {config : Config}

/-- **Runs over the same slots.** A trace that only the continuous run keeps does not make the runs
part: both go on from the same state. -/
theorem recordedRun_even {units units' : List TraceUnit}
    (h : List.Forall₂ TraceUnit.SameSlots units units')
    (hcovers : ∀ unit ∈ units, unit.Covers config.daily) {p q : Progress σ} (hpq : p.Even q)
    {log log' : List GeneratedTrace}
    (hlog : log.map (·.unnamed) = (fitted log').map (·.unnamed)) :
    let daily := recordedRun apps config.daily takeAll units p log
    let whole := recordedRun apps config.oneDay takeAll units' q log'
    daily.1.1 = whole.1.1 ∧ daily.1.2.Even whole.1.2 ∧
      daily.2.map (·.unnamed) = (fitted whole.2).map (·.unnamed) := by
  induction h generalizing p q log log' with
  | nil => exact ⟨rfl, hpq, hlog⟩
  | @cons unit unit' units units' hunit _ ih =>
    obtain ⟨hcover, hcovers⟩ := List.forall_mem_cons.mp hcovers
    have hstep := processUnit_even apps config hunit hcover hpq
    generalize hout : processUnit apps config.daily unit p = out at hstep
    generalize hout' : processUnit apps config.oneDay unit' q = out' at hstep
    cases hstep with
    | fail e h =>
      rw [recordedRun_of_fail takeAll hout, recordedRun_of_fail takeAll hout']
      exact ⟨rfl, h, hlog⟩
    | skip h =>
      rw [recordedRun_of_skip takeAll hout, recordedRun_of_skip takeAll hout']
      exact ih hcovers h hlog
    | @drop p' q' t' ht h =>
      rw [recordedRun_of_skip takeAll hout, recordedRun_of_emit takeAll hout']
      have hfitted : fitted (log' ++ [t']) = fitted log' := by
        unfold fitted
        rw [List.filter_append, List.filter_singleton, decide_eq_false ht]
        exact List.append_nil _
      exact ih hcovers (h.listWritten_right t') (hfitted ▸ hlog)
    | @emit p' q' t t' ht htt h =>
      rw [recordedRun_of_emit takeAll hout, recordedRun_of_emit takeAll hout']
      have hfitted : fitted (log' ++ [t']) = fitted log' ++ [t'] := by
        unfold fitted
        rw [List.filter_append, List.filter_singleton, decide_eq_true ht]
        rfl
      apply ih hcovers ((h.listWritten_left t).listWritten_right t')
      rw [hfitted, List.map_append, List.map_append, hlog]
      exact congrArg (_ ++ [·]) htt

/-- **Daily runs are continuous runs of one day, less the traces without a fit.** Each observation
is the only one of its function and of the first day, and all applications are known.  Then a daily
run and a continuous run of one day that start from the same state look at all functions, count the
same mismatches and the same days without a fit, and end in the same state.  The daily run hands
over the traces of the continuous run that have a fit, under other names: a trace that it drops
shifts none of the later ones. -/
theorem generateTraces_oneDay (config : Config) {observations : List Observation}
    (hfunctions : (observations.map (·.function)).Nodup)
    (hday : ∀ o ∈ observations, o.day = 1) (hknows : ∀ o ∈ observations, apps.Knows o.app)
    (source : σ) (index index' : AuditIndex) :
    let daily := (generateTraces apps config.daily (recorder takeAll) observations source
      index).run []
    let whole := (generateTraces apps config.oneDay (recorder takeAll) observations source
      index').run []
    (daily.1.1 = .ok () ∧ whole.1.1 = .ok ()) ∧
      daily.1.2.report.functions = observations.length ∧ daily.1.2.Even whole.1.2 ∧
      daily.2.map (·.unnamed) = (fitted whole.2).map (·.unnamed) := by
  intro daily whole
  have hok : daily.1.1 = .ok () := generateTraces_ok_of_knows hknows
  have hstart : (Progress.initial source index).Even (.initial source index') :=
    ⟨rfl, rfl, rfl, rfl⟩
  have hnone : ([] : List GeneratedTrace).map (·.unnamed) = (fitted []).map (·.unnamed) := rfl
  obtain ⟨hresult, heven, htraces⟩ := recordedRun_even (units_sameSlots config hfunctions hday)
    (fun unit hunit => Config.covers_of_mem_units hunit) hstart hnone
  refine ⟨⟨hok, hresult.symm.trans hok⟩, ?_, heven, htraces⟩
  calc daily.1.2.report.functions
      = (config.daily.units observations).length := (accounts_of_ok hok).functions
    _ = observations.length := List.length_map TraceUnit.ofObservation

end Run

/-- Two functions of one application, on the same day. -/
theorem generateTraces_oneDay_idle :
    (([idleObservation, otherObservation].map (·.function)).Nodup ∧
      (∀ o ∈ [idleObservation, otherObservation], o.day = 1) ∧
      ∀ o ∈ [idleObservation, otherObservation], idleTable.Knows o.app) ∧
    let whole := (generateTraces idleTable Config.standard.oneDay (recorder takeAll)
      [idleObservation, otherObservation] (WordCycle.ofList [1]) (.ofTable idleTable)).run []
    whole.1.1 = .ok () ∧ whole.1.2.report.functions = 2 := by
  have hfunctions : ([idleObservation, otherObservation].map (·.function)).Nodup := by decide
  have hday : ∀ o ∈ [idleObservation, otherObservation], o.day = 1 :=
    List.forall_mem_cons.mpr ⟨rfl, List.forall_mem_singleton.mpr rfl⟩
  have hknows : ∀ o ∈ [idleObservation, otherObservation], idleTable.Knows o.app :=
    List.forall_mem_cons.mpr ⟨idleTable_knows, List.forall_mem_singleton.mpr idleTable_knows⟩
  obtain ⟨⟨-, hok⟩, hlength, heven, -⟩ := generateTraces_oneDay .standard hfunctions hday hknows
    (WordCycle.ofList [1]) (.ofTable idleTable) (.ofTable idleTable)
  exact ⟨⟨hfunctions, hday, hknows⟩, hok, heven.functions.symm.trans hlength⟩

end WorkloadSynth
