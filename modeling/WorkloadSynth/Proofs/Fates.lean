import WorkloadSynth.Proofs.Generate

/-!
# The fate of a unit

What becomes of a unit of a run is decided by its slots, the application table and the
configuration alone: the random source has no say in it.  `TraceUnit.fate` is that decision,
`fateOutcome_processUnit` says that a step of a run carries it out, and `Completes` follows the steps
of a run that looked at all of its units.
-/

namespace WorkloadSynth

/-! ## §1 — why there is no trace -/

/-- Why the day of an observation cannot become a segment, if it cannot. -/
def Observation.refusal? (apps : AppTable) (o : Observation) : Option Error :=
  match apps.functionCount o.app with
  | .error e => some e
  | .ok _ =>
    if o.trigger.isTimer ∧ o.invocations.length ≠ minutesPerDay then
      some (.schemaMismatch o.id .invocations minutesPerDay o.invocations.length)
    else none

namespace Observation

variable {apps : AppTable} {o : Observation}

/-- An observation is stitchable or refused, and the refusal is computed from the table. -/
theorem refusal?_cases (apps : AppTable) (o : Observation) :
    (o.Stitchable apps ∧ o.refusal? apps = none) ∨
      ∃ e, o.Refused apps e ∧ o.refusal? apps = some e := by
  unfold refusal?
  by_cases hk : apps.Knows o.app
  · obtain ⟨count, -, hc⟩ := hk.functionCount_eq
    rw [hc]
    dsimp only
    by_cases hbad : o.trigger.isTimer = true ∧ o.invocations.length ≠ minutesPerDay
    · rw [if_pos hbad]
      exact .inr ⟨_, .minutes hk (Trigger.isTimer_iff.mp hbad.1) hbad.2, rfl⟩
    · rw [if_neg hbad]
      refine .inl ⟨⟨hk, fun ht => ?_⟩, rfl⟩
      by_contra hl
      exact hbad ⟨Trigger.isTimer_iff.mpr ht, hl⟩
  · rw [AppTable.functionCount_of_not_knows hk]
    exact .inr ⟨_, .unknown hk, rfl⟩

theorem refusal?_eq_none_iff : o.refusal? apps = none ↔ o.Stitchable apps := by
  rcases refusal?_cases apps o with ⟨hs, hn⟩ | ⟨e, hr, he⟩
  · exact ⟨fun _ => hs, fun _ => hn⟩
  · rw [he]
    exact ⟨nofun, fun hs => absurd hs hr.not_stitchable⟩

/-- There is only one reason to refuse an observation. -/
theorem Refused.refusal?_eq {e : Error} (h : o.Refused apps e) : o.refusal? apps = some e := by
  unfold refusal?
  cases h with
  | unknown hk => rw [AppTable.functionCount_of_not_knows hk]
  | minutes hk ht hl =>
    obtain ⟨count, -, hc⟩ := hk.functionCount_eq
    rw [hc]
    exact if_pos ⟨Trigger.isTimer_iff.mpr ht, hl⟩

end Observation

namespace TraceUnit

/-- The first refusal among slots. -/
def refusal? (apps : AppTable) (slots : List (Option Observation)) : Option Error :=
  slots.findSome? fun slot => slot.bind (·.refusal? apps)

/-- Why there is no trace of a given duration for a unit, if there is none.  The days are looked at
before their number is. -/
def obstacle? (apps : AppTable) (duration : UInt64) (unit : TraceUnit) : Option Error :=
  match refusal? apps unit.slots with
  | some e => some e
  | none =>
    if unit.slots.length * minutesPerDay = gridSize duration minuteMs then none
    else some (.schemaMismatch unit.name .invocations (gridSize duration minuteMs)
      (unit.slots.length * minutesPerDay))

variable {apps : AppTable} {slots : List (Option Observation)}

theorem refusal?_eq_none_iff :
    refusal? apps slots = none ↔ ∀ o, some o ∈ slots → o.Stitchable apps := by
  unfold refusal?
  rw [List.findSome?_eq_none_iff]
  constructor
  · intro h o ho
    exact Observation.refusal?_eq_none_iff.mp (h (some o) ho)
  · intro h slot hslot
    cases slot with
    | none => rfl
    | some o => exact Observation.refusal?_eq_none_iff.mpr (h o hslot)

/-- Earlier days were not refused, so the refusal of the list is that of the day. -/
theorem refusal?_of_firstRefusal {d : Nat} {e : Error} (h : FirstRefusal apps slots d e) :
    refusal? apps slots = some e := by
  induction slots generalizing d with
  | nil =>
    obtain ⟨o, ho, -⟩ := h.refused
    simp at ho
  | cons slot slots ih =>
    unfold refusal?
    rw [List.findSome?_cons]
    cases d with
    | zero =>
      obtain ⟨o, ho, hr⟩ := h.refused
      obtain rfl : slot = some o := by simpa using ho
      rw [Option.bind_some, hr.refusal?_eq]
    | succ d =>
      have hslot : slot.bind (·.refusal? apps) = none := by
        cases slot with
        | none => rfl
        | some o =>
          exact Observation.refusal?_eq_none_iff.mpr (h.earlier 0 (Nat.succ_pos d) o rfl)
      have hrest : FirstRefusal apps slots d e :=
        ⟨h.refused, fun k hk o ho => h.earlier (k + 1) (Nat.succ_lt_succ hk) o ho⟩
      rw [hslot]
      exact ih hrest

theorem stitchable_of_obstacle?_eq_none {duration : UInt64} {unit : TraceUnit}
    (h : unit.obstacle? apps duration = none) {o : Observation} (ho : some o ∈ unit.slots) :
    o.Stitchable apps := by
  unfold obstacle? at h
  cases hr : refusal? apps unit.slots with
  | some e => rw [hr] at h; cases h
  | none => exact refusal?_eq_none_iff.mp hr o ho

end TraceUnit

section Build

variable {σ : Type} [RandomSource σ] (apps : AppTable) (provisioning : Provisioning)
  (duration : UInt64) (unit : TraceUnit) (s : σ)

/-- **Whether there is a trace.** The obstacle of a unit is the only thing that can prevent its
trace, whatever state the random source is in. -/
theorem buildTrace_fst :
    (buildTrace apps provisioning duration unit s).1 =
      match unit.obstacle? apps duration with
      | none => .ok (builtTrace apps provisioning duration unit s)
      | some e => .error e := by
  unfold buildTrace TraceUnit.obstacle?
  rw [grid_minuteMs]
  rcases stitch_cases apps unit.slots s with ⟨hall, hst⟩ | ⟨d, e, hfirst, hst⟩
  · have hlen := (Stitched.ofDays_segmentsFrom hall s).length
    simp only [hst, TraceUnit.refusal?_eq_none_iff.mpr hall]
    by_cases hsize : unit.slots.length * minutesPerDay = gridSize duration minuteMs
    · rw [hsize, ← minuteGrid_length (gridSize duration minuteMs)] at hlen
      simp only [assemble_of_length hlen, if_pos hsize]
      rfl
    -- all columns have the same length, so the first of them is reported
    · have hbad : ¬ (Stitched.mk (segmentsFrom apps unit.slots s)).columns.OfLength
          (minuteGrid (gridSize duration minuteMs)).length := by
        intro hcols
        exact hsize (hlen.invocations.symm.trans
          (hcols.invocations.trans (minuteGrid_length _)))
      simp only [assemble_of_not_length hbad, if_neg hsize]
      unfold Columns.misfit
      rw [hlen.invocations, minuteGrid_length, if_pos hsize]
  · simp only [hst, TraceUnit.refusal?_of_firstRefusal hfirst]

end Build

/-! ## §2 — what a unit says about its days -/

/-- Does the fit of a day fail? -/
def Observation.lacksFit (o : Observation) : Bool :=
  match o.fittedSources with
  | .ok _ => false
  | .error _ => true

namespace TraceUnit

/-- The observed days whose fit fails. -/
def fallbackDays (unit : TraceUnit) : Nat := unit.slots.countP fun slot => slot.any (·.lacksFit)

/-- The days without an observation. -/
def missingDays (unit : TraceUnit) : Nat := unit.slots.countP (·.isNone)

/-- The numbers of the observed days of a list of slots whose first has number `n`. -/
def daysFrom : List (Option Observation) → Nat → List Nat
  | [], _ => []
  | none :: slots, n => daysFrom slots (n + 1)
  | some _ :: slots, n => n :: daysFrom slots (n + 1)

/-- The numbers of the observed days, counted from one. -/
def observedDays (unit : TraceUnit) : List Nat := daysFrom unit.slots 1

end TraceUnit

/-- What a trace reports is what its unit says. -/
structure GeneratedTrace.Reports (t : GeneratedTrace) (unit : TraceUnit) : Prop where
  name : t.name = unit.name
  app : t.app = TraceUnit.app? unit.slots
  contributingDays : t.contributingDays = unit.observedDays
  fitFailures : t.fitFailures = unit.fallbackDays
  missingDays : t.missingDays = unit.missingDays

section Reported

variable {σ : Type} [RandomSource σ] {apps : AppTable}

/-- What the slots decide about a day can be read off its segment. -/
theorem segmentsFrom_map {α : Type} {f : Segment → α} {g : Option Observation → α}
    (hfg : ∀ slot, (∀ o, slot = some o → o.Stitchable apps) →
      ∀ s : σ, f (segmentAt apps slot s) = g slot)
    {slots : List (Option Observation)} (h : ∀ o, some o ∈ slots → o.Stitchable apps) (s : σ) :
    (segmentsFrom apps slots s).map f = slots.map g := by
  induction slots generalizing s with
  | nil => rfl
  | cons slot slots ih =>
    have hslot : ∀ o, slot = some o → o.Stitchable apps := fun o ho => h o (ho ▸ List.mem_cons_self)
    rw [segmentsFrom, List.map_cons, List.map_cons, hfg slot hslot,
      ih (fun o ho => h o (List.mem_cons_of_mem _ ho))]

/-- The fit of a day fails in every state or in none. -/
theorem synthesizeDay_fallback_isSome (o : Observation) (count : UInt64) (s : σ) :
    (synthesizeDay o count s).1.fallback.isSome = o.lacksFit := by
  rw [synthesizeDay_fallback_eq, Observation.lacksFit]
  cases o.fittedSources with
  | ok sources => rfl
  | error e => rfl

theorem segmentAt_isFallback_eq {slot : Option Observation}
    (h : ∀ o, slot = some o → o.Stitchable apps) (s : σ) :
    (segmentAt apps slot s).isFallback = slot.any (·.lacksFit) := by
  cases slot with
  | none => rfl
  | some o =>
    obtain ⟨count, -, hc⟩ := (h o rfl).knows.functionCount_eq
    rw [segmentAt_of_functionCount apps hc]
    exact synthesizeDay_fallback_isSome o count s

theorem observedFrom_segmentsFrom {slots : List (Option Observation)}
    (h : ∀ o, some o ∈ slots → o.Stitchable apps) (s : σ) (n : Nat) :
    Stitched.observedFrom (segmentsFrom apps slots s) n = TraceUnit.daysFrom slots n := by
  induction slots generalizing s n with
  | nil => rfl
  | cons slot slots ih =>
    have ih' := fun s => ih (fun o ho => h o (List.mem_cons_of_mem _ ho)) s (n + 1)
    rw [segmentsFrom, Stitched.observedFrom_cons, ih',
      segmentAt_isObserved apps fun o ho => h o (ho ▸ List.mem_cons_self)]
    cases slot with
    | none => rfl
    | some o => rfl

theorem builtTrace_reports {unit : TraceUnit} (h : ∀ o, some o ∈ unit.slots → o.Stitchable apps)
    (provisioning : Provisioning) (duration : UInt64) (s : σ) :
    (builtTrace apps provisioning duration unit s).Reports unit := by
  have hmissing : (segmentsFrom apps unit.slots s).map (fun x => !x.isObserved) =
      unit.slots.map (·.isNone) :=
    segmentsFrom_map (fun slot hslot s => by
      rw [segmentAt_isObserved apps hslot, Option.not_isSome]) h s
  have hfallback : (segmentsFrom apps unit.slots s).map (·.isFallback) =
      unit.slots.map (·.any (·.lacksFit)) :=
    segmentsFrom_map (fun slot hslot s => segmentAt_isFallback_eq hslot s) h s
  refine ⟨rfl, rfl, observedFrom_segmentsFrom h s 1, ?_, ?_⟩
  · show (segmentsFrom apps unit.slots s).countP (·.isFallback) = unit.fallbackDays
    have hcount := congrArg (List.countP id) hfallback
    rw [List.countP_map, List.countP_map] at hcount
    exact hcount
  · show (segmentsFrom apps unit.slots s).countP (fun x => !x.isObserved) = unit.missingDays
    have hcount := congrArg (List.countP id) hmissing
    rw [List.countP_map, List.countP_map] at hcount
    exact hcount

end Reported

namespace TraceUnit

theorem daysFrom_length (slots : List (Option Observation)) (n : Nat) :
    slots.countP (·.isNone) + (daysFrom slots n).length = slots.length := by
  induction slots generalizing n with
  | nil => rfl
  | cons slot slots ih =>
    have hslots := ih (n + 1)
    rw [List.countP_cons, List.length_cons]
    cases slot with
    | none =>
      simp only [daysFrom, Option.isNone_none, if_true]
      omega
    | some o =>
      simp only [daysFrom, Option.isNone_some, Bool.false_eq_true, if_false, List.length_cons]
      omega

/-- Every day is missing or observed. -/
theorem missingDays_add_observedDays (unit : TraceUnit) :
    unit.missingDays + unit.observedDays.length = unit.slots.length :=
  daysFrom_length unit.slots 1

end TraceUnit

/-! ## §3 — fates -/

/-- Is a failure one that a run passes over? -/
def Error.isMismatch : Error → Bool
  | .schemaMismatch .. => true
  | _ => false

/-- What becomes of a unit. -/
inductive Fate where
  /-- The run ends with an error. -/
  | aborts (e : Error)
  /-- The unit does not fit the grid. -/
  | misfit
  /-- There is a trace, but it is not kept. -/
  | dropped
  /-- The trace goes to the sink. -/
  | written
deriving DecidableEq

/-- The days of known applications are refused for their minutes only. -/
theorem Observation.isMismatch_of_refusal? {apps : AppTable} {o : Observation} {e : Error}
    (hknows : apps.Knows o.app) (h : o.refusal? apps = some e) : e.isMismatch = true := by
  obtain ⟨count, -, hc⟩ := hknows.functionCount_eq
  unfold refusal? at h
  rw [hc] at h
  dsimp only at h
  split at h
  · rw [← Option.some.inj h]
    rfl
  · cases h

theorem TraceUnit.isMismatch_of_obstacle? {apps : AppTable} {duration : UInt64} {unit : TraceUnit}
    {e : Error} (hknows : ∀ o, some o ∈ unit.slots → apps.Knows o.app)
    (h : unit.obstacle? apps duration = some e) : e.isMismatch = true := by
  unfold obstacle? at h
  cases hrefusal : refusal? apps unit.slots with
  | some e' =>
    rw [hrefusal] at h
    obtain ⟨slot, hslot, hs⟩ := List.exists_of_findSome?_eq_some hrefusal
    obtain ⟨o, rfl, ho⟩ := Option.bind_eq_some_iff.mp hs
    rw [← Option.some.inj h]
    exact Observation.isMismatch_of_refusal? (hknows o hslot) ho
  | none =>
    rw [hrefusal] at h
    dsimp only at h
    split at h
    · cases h
    · rw [← Option.some.inj h]
      rfl

/-- The fate of a unit in a run. -/
def TraceUnit.fate (apps : AppTable) (config : Config) (unit : TraceUnit) : Fate :=
  match unit.obstacle? apps config.durationMs with
  | some e => if e.isMismatch then .misfit else .aborts e
  | none => if 0 < unit.fallbackDays ∧ config.mode = .daily then .dropped else .written

/-- A run ends early for an unknown application only. -/
theorem TraceUnit.fate_ne_aborts {apps : AppTable} {config : Config} {unit : TraceUnit}
    (h : ∀ o, some o ∈ unit.slots → apps.Knows o.app) (e : Error) :
    unit.fate apps config ≠ .aborts e := by
  unfold fate
  cases hobs : unit.obstacle? apps config.durationMs with
  | some e' =>
    dsimp only
    rw [if_pos (isMismatch_of_obstacle? h hobs)]
    exact nofun
  | none =>
    dsimp only
    split
    · exact nofun
    · exact nofun

section Step

variable {σ : Type} [RandomSource σ] (apps : AppTable) (config : Config) (unit : TraceUnit)
  (p : Progress σ)

/-- The outcomes that carry out the fate of a unit. -/
inductive FateOutcome : UnitOutcome σ → Prop where
  | aborts (e : Error) (source : σ) (h : unit.fate apps config = .aborts e) :
      FateOutcome (.fail e { p with source })
  | misfit (source : σ) (h : unit.fate apps config = .misfit) :
      FateOutcome (.skip (p.countMismatch source))
  | dropped (source : σ) (h : unit.fate apps config = .dropped)
      (ht : (unitTrace apps config unit p).Reports unit) :
      FateOutcome (.skip (p.countDropped source (unitTrace apps config unit p)))
  | written (source : σ) (h : unit.fate apps config = .written)
      (ht : (unitTrace apps config unit p).Reports unit) :
      FateOutcome (.emit (unitTrace apps config unit p)
        (p.countBuilt source (unitTrace apps config unit p)))

/-- Only daily traces are dropped for a day without a fit. -/
theorem not_keepsFallbackDays_iff (mode : TraceMode) :
    (!mode.keepsFallbackDays) = true ↔ mode = .daily := by
  cases mode <;> decide

/-- **One step of a run.** It carries out the fate of its unit. -/
theorem fateOutcome_processUnit :
    FateOutcome apps config unit p (processUnit apps config unit p) := by
  have hbuild := buildTrace_fst apps config.provisioning config.durationMs unit p.source
  unfold processUnit
  generalize hb : buildTrace apps config.provisioning config.durationMs unit p.source = r
    at hbuild ⊢
  obtain ⟨result, source⟩ := r
  cases hobs : unit.obstacle? apps config.durationMs with
  | some e =>
    rw [hobs] at hbuild
    obtain rfl : result = .error e := hbuild
    have hfate : unit.fate apps config = if e.isMismatch then .misfit else .aborts e := by
      unfold TraceUnit.fate
      rw [hobs]
    -- a mismatch is passed over, any other error ends the run
    cases e with
    | schemaMismatch => exact .misfit source hfate
    | _ => exact .aborts _ source hfate
  | none =>
    rw [hobs] at hbuild
    obtain rfl : result = .ok (unitTrace apps config unit p) := hbuild
    have ht : (unitTrace apps config unit p).Reports unit :=
      builtTrace_reports (fun o ho => TraceUnit.stitchable_of_obstacle?_eq_none hobs ho) _ _ _
    have hfate : unit.fate apps config =
        if 0 < unit.fallbackDays ∧ config.mode = .daily then .dropped else .written := by
      unfold TraceUnit.fate
      rw [hobs]
    have hiff : (decide (0 < (unitTrace apps config unit p).fitFailures) &&
        !config.mode.keepsFallbackDays) = true ↔
          0 < unit.fallbackDays ∧ config.mode = .daily := by
      rw [Bool.and_eq_true, decide_eq_true_iff, not_keepsFallbackDays_iff, ht.fitFailures]
    dsimp only
    by_cases hdrop : 0 < unit.fallbackDays ∧ config.mode = .daily
    · rw [if_pos (hiff.mpr hdrop)]
      exact .dropped source (hfate.trans (if_pos hdrop)) ht
    · rw [if_neg (mt hiff.mp hdrop)]
      exact .written source (hfate.trans (if_neg hdrop)) ht

end Step

/-! ## §4 — the course of a run -/

section Course

variable {σ : Type} [RandomSource σ] (apps : AppTable) (config : Config)

/-- A run over units that aborts nowhere, with the traces that it writes and the units that they are
made from. -/
inductive Completes : List TraceUnit → Progress σ → List (TraceUnit × GeneratedTrace) →
    Progress σ → Prop where
  | nil (p : Progress σ) : Completes [] p [] p
  | misfit {unit : TraceUnit} {units : List TraceUnit} {p q : Progress σ} {source : σ}
      {sent : List (TraceUnit × GeneratedTrace)} (h : unit.fate apps config = .misfit)
      (hrest : Completes units (p.countMismatch source) sent q) :
      Completes (unit :: units) p sent q
  | dropped {unit : TraceUnit} {units : List TraceUnit} {p q : Progress σ} {source : σ}
      {t : GeneratedTrace} {sent : List (TraceUnit × GeneratedTrace)}
      (h : unit.fate apps config = .dropped) (ht : t.Reports unit)
      (hrest : Completes units (p.countDropped source t) sent q) :
      Completes (unit :: units) p sent q
  | written {unit : TraceUnit} {units : List TraceUnit} {p q : Progress σ} {source : σ}
      {sent : List (TraceUnit × GeneratedTrace)} (h : unit.fate apps config = .written)
      (ht : (unitTrace apps config unit p).Reports unit)
      (hrest : Completes units
        ((p.countBuilt source (unitTrace apps config unit p)).listWritten
          (unitTrace apps config unit p)) sent q) :
      Completes (unit :: units) p ((unit, unitTrace apps config unit p) :: sent) q

variable {apps config} {answer : List GeneratedTrace → GeneratedTrace → Except Error Unit}

/-- **A run that ends well took its course.** The sink took every trace that it was asked to
take. -/
theorem completes_of_ok {units : List TraceUnit} {p : Progress σ} {log : List GeneratedTrace}
    (h : (recordedRun apps config answer units p log).1.1 = .ok ()) :
    ∃ sent, Completes apps config units p sent (recordedRun apps config answer units p log).1.2 ∧
      (recordedRun apps config answer units p log).2 = log ++ sent.map (·.2) := by
  induction units generalizing p log with
  | nil => exact ⟨[], .nil p, (List.append_nil log).symm⟩
  | cons unit units ih =>
    have hstep := fateOutcome_processUnit apps config unit p
    generalize hout : processUnit apps config unit p = out at hstep
    cases hstep with
    | aborts e source hfate =>
      rw [recordedRun_of_fail answer hout] at h
      cases h
    | misfit source hfate =>
      rw [recordedRun_of_skip answer hout] at h ⊢
      obtain ⟨sent, hrun, hlog⟩ := ih h
      exact ⟨sent, .misfit hfate hrun, hlog⟩
    | dropped source hfate ht =>
      rw [recordedRun_of_skip answer hout] at h ⊢
      obtain ⟨sent, hrun, hlog⟩ := ih h
      exact ⟨sent, .dropped hfate ht hrun, hlog⟩
    | written source hfate ht =>
      rw [recordedRun_of_emit answer hout] at h ⊢
      cases hans : answer log (unitTrace apps config unit p) with
      | error e =>
        rw [hans] at h
        cases h
      | ok u =>
        rw [hans] at h
        obtain ⟨sent, hrun, hlog⟩ := ih h
        rw [List.append_assoc] at hlog
        exact ⟨_ :: sent, .written hfate ht hrun, hlog⟩

/-- A run aborts only at a unit whose fate it is, or if the sink refuses. -/
theorem takeAll_ok_of_fates {units : List TraceUnit}
    (h : ∀ unit ∈ units, ∀ e, unit.fate apps config ≠ .aborts e) (p : Progress σ)
    (log : List GeneratedTrace) :
    (recordedRun apps config takeAll units p log).1.1 = .ok () := by
  induction units generalizing p log with
  | nil => rfl
  | cons unit units ih =>
    have ih' := fun p => ih (fun u hu => h u (List.mem_cons_of_mem _ hu)) p
    have hstep := fateOutcome_processUnit apps config unit p
    generalize hout : processUnit apps config unit p = out at hstep
    cases hstep with
    | aborts e source hfate => exact absurd hfate (h unit List.mem_cons_self e)
    | misfit source hfate =>
      rw [recordedRun_of_skip takeAll hout]
      exact ih' _ log
    | dropped source hfate ht =>
      rw [recordedRun_of_skip takeAll hout]
      exact ih' _ log
    | written source hfate ht =>
      rw [recordedRun_of_emit takeAll hout]
      exact ih' _ _

variable {observations : List Observation} {source : σ} {index : AuditIndex}

/-- A generation that ends well, as the run over its units. -/
theorem completes_of_generateTraces_ok
    (h : ((generateTraces apps config (recorder answer) observations source index).run []).1.1 =
      .ok ()) :
    let run := (generateTraces apps config (recorder answer) observations source index).run []
    ∃ sent, Completes apps config (config.units observations) (.initial source index) sent
        run.1.2 ∧ run.2 = sent.map (·.2) :=
  completes_of_ok h

theorem generateTraces_ok_of_fates
    (h : ∀ unit ∈ config.units observations, ∀ e, unit.fate apps config ≠ .aborts e) :
    ((generateTraces apps config (recorder takeAll) observations source index).run []).1.1 =
      .ok () :=
  takeAll_ok_of_fates h (.initial source index) []

/-- Where all applications are known, a run that is refused nothing ends well. -/
theorem generateTraces_ok_of_knows (h : ∀ o ∈ observations, apps.Knows o.app) :
    ((generateTraces apps config (recorder takeAll) observations source index).run []).1.1 =
      .ok () := by
  apply generateTraces_ok_of_fates
  intro unit hunit
  exact TraceUnit.fate_ne_aborts fun o ho => h o (TraceUnit.mem_of_mem_slots hunit ho)

end Course

end WorkloadSynth
