import WorkloadSynth.Proofs.AuditListing
import WorkloadSynth.Proofs.Filing

/-!
# The applications of a unit

Observations are arranged by functions, and a function may have been observed under several
applications.  Its days are stitched into one trace all the same, and the trace is credited to the
application of the first of them (`sharedFunction_credited`).  The credit holds for all days of the
trace exactly if the observations in the slots of the unit agree in their application
(`Attributed.everyDay`), and all units are of that kind exactly if no function has days of two
applications (`forall_ofOneApp_iff`).
-/

namespace WorkloadSynth

namespace TraceUnit

/-! ## §1 — what the slots of a unit agree in -/

/-- All observed days belong to one function. -/
def OfOneFunction (unit : TraceUnit) : Prop :=
  ∀ o o', some o ∈ unit.slots → some o' ∈ unit.slots → o.function = o'.function

/-- All observed days belong to one application. -/
def OfOneApp (unit : TraceUnit) : Prop :=
  ∀ o o', some o ∈ unit.slots → some o' ∈ unit.slots → o.app = o'.app

/-- An observation that fills a slot: the first of its function and day, on a day of the trace. -/
structure IsUsed (observations : List Observation) (days : Nat) (o : Observation) : Prop where
  isEarliest : ∃ i, IsEarliest observations i o
  first_le : 1 ≤ o.day
  le_last : o.day ≤ days

/-- No function is used under two applications. -/
def FunctionsOfOneApp (observations : List Observation) (days : Nat) : Prop :=
  ∀ o o' : Observation, IsUsed observations days o → IsUsed observations days o' →
    o.function = o'.function → o.app = o'.app

theorem functionsOfOneApp_of_forall {observations : List Observation} (days : Nat)
    (h : ∀ o ∈ observations, ∀ o' ∈ observations, o.function = o'.function → o.app = o'.app) :
    FunctionsOfOneApp observations days := by
  rintro o o' ⟨⟨i, hi⟩, -, -⟩ ⟨⟨i', hi'⟩, -, -⟩
  exact h o (List.mem_of_getElem? hi.at_position) o' (List.mem_of_getElem? hi'.at_position)

section Units

variable {observations : List Observation} {days : Nat} {functions : List String}
  {units : List TraceUnit} {unit : TraceUnit} {o o' : Observation}

/-- What stands in the slots of a unit is used, and it is of the function of the unit. -/
theorem of_mem_slots (h : List.Forall₂ (IsUnitOf observations days) functions units) {u : Nat}
    (hunit : units[u]? = some unit) (ho : some o ∈ unit.slots) :
    IsUsed observations days o ∧ functions[u]? = some o.function := by
  obtain ⟨k, hk⟩ := List.mem_iff_getElem?.mp ho
  obtain ⟨hfunction, hlt, hday, hearliest⟩ := of_slot h hunit hk
  exact ⟨⟨hearliest, by omega, by omega⟩, hfunction⟩

/-- What is used stands in a slot of the unit of its function. -/
theorem IsUsed.exists_unit (ho : IsUsed observations days o)
    (h : List.Forall₂ (IsUnitOf observations days) functions units)
    (hfunctions : ListsFunctions observations functions) :
    ∃ (u : Nat) (unit : TraceUnit), units[u]? = some unit ∧ some o ∈ unit.slots ∧
      functions[u]? = some o.function := by
  obtain ⟨⟨i, hi⟩, hfirst, hlast⟩ := ho
  obtain ⟨place, o', unit, hi', hunit, hslot⟩ := exists_place h hfunctions hi hfirst hlast
  obtain rfl := Option.some.inj (hi.at_position.symm.trans hi'.at_position)
  exact ⟨place.1, unit, hunit, List.mem_of_getElem? hslot, (of_slot h hunit hslot).1⟩

end Units

section Continuous

variable (observations : List Observation) (days : Nat)

/-- Days of two functions are not stitched. -/
theorem ofOneFunction_of_continuous {unit : TraceUnit}
    (hunit : unit ∈ ofObservations .continuous days observations) : unit.OfOneFunction := by
  intro o o' ho ho'
  obtain ⟨u, hu⟩ := List.mem_iff_getElem?.mp hunit
  have hfunction := (of_mem_slots (forall₂_isUnitOf observations days) hu ho).2
  have hfunction' := (of_mem_slots (forall₂_isUnitOf observations days) hu ho').2
  exact Option.some.inj (hfunction.symm.trans hfunction')

/-- **When days of two applications are not stitched.** -/
theorem forall_ofOneApp_iff :
    (∀ unit ∈ ofObservations .continuous days observations, unit.OfOneApp) ↔
      FunctionsOfOneApp observations days := by
  have hunits := forall₂_isUnitOf observations days
  have hfunctions := listsFunctions_eraseDups observations
  constructor
  · intro h o o' ho ho' hsame
    obtain ⟨u, unit, hunit, hmem, hu⟩ := ho.exists_unit hunits hfunctions
    obtain ⟨u', unit', hunit', hmem', hu'⟩ := ho'.exists_unit hunits hfunctions
    -- the function has one unit
    obtain rfl : u = u' := by
      have hlt := (List.getElem?_eq_some_iff.mp hu).1
      exact (List.getElem?_inj hlt hfunctions.once).mp (hu.trans (hsame ▸ hu'.symm))
    obtain rfl := Option.some.inj (hunit.symm.trans hunit')
    exact h unit (List.mem_of_getElem? hunit) o o' hmem hmem'
  · intro h unit hunit o o' ho ho'
    obtain ⟨u, hu⟩ := List.mem_iff_getElem?.mp hunit
    exact h o o' (of_mem_slots hunits hu ho).1 (of_mem_slots hunits hu ho').1
      (ofOneFunction_of_continuous observations days hunit o o' ho ho')

end Continuous

/-! ## §2 — the application that is credited -/

theorem mem_observedDays_iff {unit : TraceUnit} {d : Nat} :
    d ∈ unit.observedDays ↔ 1 ≤ d ∧ ∃ o, unit.slots[d - 1]? = some (some o) :=
  mem_daysFrom_iff

end TraceUnit

/-- What a trace and the audit index say about the applications of the days of a unit. -/
structure GeneratedTrace.Attributed (t : GeneratedTrace) (unit : TraceUnit) : Prop where
  days : ∀ d, d ∈ t.contributingDays ↔ 1 ≤ d ∧ ∃ o, unit.slots[d - 1]? = some (some o)
  /-- The application of a trace is that of its first observed day. -/
  app : t.app = (t.earliest? unit).map (·.app)
  /-- When the trace is written, the index credits its application. -/
  credit : ∀ {σ : Type} (p : Progress σ),
    (p.listWritten t).index = t.app.elim p.index fun app => p.index.add app t.name
  /-- That is the application of every contributing day exactly if the unit has only one. -/
  everyDay : unit.OfOneApp ↔
    ∀ d ∈ t.contributingDays, ∃ o, unit.slots[d - 1]? = some (some o) ∧ t.app = some o.app

namespace GeneratedTrace

variable {t : GeneratedTrace} {unit : TraceUnit}

theorem Reports.mem_contributingDays_iff (h : t.Reports unit) {d : Nat} :
    d ∈ t.contributingDays ↔ 1 ≤ d ∧ ∃ o, unit.slots[d - 1]? = some (some o) := by
  rw [h.contributingDays]
  exact TraceUnit.mem_observedDays_iff

/-- An observed slot is that of a contributing day. -/
theorem Reports.exists_day (h : t.Reports unit) {o : Observation} (ho : some o ∈ unit.slots) :
    ∃ d ∈ t.contributingDays, unit.slots[d - 1]? = some (some o) := by
  obtain ⟨k, hk⟩ := List.mem_iff_getElem?.mp ho
  have hslot : unit.slots[k + 1 - 1]? = some (some o) := hk
  exact ⟨k + 1, h.mem_contributingDays_iff.mpr ⟨Nat.le_add_left 1 k, o, hslot⟩, hslot⟩

/-- A trace has an application exactly if it has a contributing day. -/
theorem Reports.app_isSome (h : t.Reports unit) :
    t.app.isSome = decide (t.contributingDays ≠ []) := by
  rw [h.app_eq, Option.isSome_map, h.earliest?_isSome]

theorem Reports.index_listWritten_eq (h : t.Reports unit) {σ : Type} (p : Progress σ) :
    (p.listWritten t).index = t.app.elim p.index fun app => p.index.add app t.name := by
  have hsome := h.app_isSome
  unfold Progress.listWritten
  dsimp only
  cases happ : t.app with
  | none =>
    split <;> rfl
  | some app =>
    have hne : t.contributingDays ≠ [] := by simpa [happ] using hsome
    rw [if_neg (by simpa using hne)]
    rfl

theorem Reports.ofOneApp_iff (h : t.Reports unit) :
    unit.OfOneApp ↔
      ∀ d ∈ t.contributingDays, ∃ o, unit.slots[d - 1]? = some (some o) ∧ t.app = some o.app := by
  constructor
  · intro hone d hd
    obtain ⟨-, o, ho⟩ := h.mem_contributingDays_iff.mp hd
    refine ⟨o, ho, ?_⟩
    have hsome : (t.earliest? unit).isSome := by
      rw [h.earliest?_isSome]
      exact decide_eq_true (List.ne_nil_of_mem hd)
    obtain ⟨first, hfirst⟩ := Option.isSome_iff_exists.mp hsome
    rw [h.app_eq, hfirst, Option.map_some]
    exact congrArg some
      (hone first o (mem_slots_of_earliest? hfirst) (List.mem_of_getElem? ho))
  · intro hdays o o' ho ho'
    have happ : ∀ o, some o ∈ unit.slots → t.app = some o.app := by
      intro o ho
      obtain ⟨d, hd, hslot⟩ := h.exists_day ho
      obtain ⟨o', hslot', happ⟩ := hdays d hd
      obtain rfl := Option.some.inj (Option.some.inj (hslot.symm.trans hslot'))
      exact happ
    exact Option.some.inj ((happ o ho).symm.trans (happ o' ho'))

theorem Reports.attributed (h : t.Reports unit) : t.Attributed unit where
  days _ := h.mem_contributingDays_iff
  app := h.app_eq
  credit := h.index_listWritten_eq
  everyDay := h.ofOneApp_iff

end GeneratedTrace

section Build

variable {σ : Type} [RandomSource σ] {apps : AppTable} {provisioning : Provisioning}
  {duration : UInt64} {unit : TraceUnit} {s : σ} {t : GeneratedTrace}

/-- Without an obstacle there is a trace. -/
theorem exists_reports_of_obstacle? (h : unit.obstacle? apps duration = none)
    (provisioning : Provisioning) (s : σ) :
    ∃ t, (buildTrace apps provisioning duration unit s).1 = .ok t ∧ t.Reports unit := by
  refine ⟨builtTrace apps provisioning duration unit s, ?_, ?_⟩
  · rw [buildTrace_fst, h]
  · exact builtTrace_reports
      (fun o ho => TraceUnit.stitchable_of_obstacle?_eq_none h ho) provisioning duration s

/-- Whatever is built reports what its unit says. -/
theorem reports_of_buildTrace (h : (buildTrace apps provisioning duration unit s).1 = .ok t) :
    t.Reports unit := by
  cases hobstacle : unit.obstacle? apps duration with
  | some e =>
    rw [buildTrace_fst, hobstacle] at h
    cases h
  | none =>
    obtain ⟨t', ht', hreports⟩ := exists_reports_of_obstacle? hobstacle provisioning s
    obtain rfl := Except.ok.inj (ht'.symm.trans h)
    exact hreports

end Build

/-- **A continuous trace belongs to one function.** It belongs to one application as well if the
observations of its function that are used do, and then its credit holds for each of its days. -/
theorem ofObservations_attributed (observations : List Observation) (days : Nat) :
    (∀ unit ∈ TraceUnit.ofObservations .continuous days observations, unit.OfOneFunction) ∧
    ((∀ unit ∈ TraceUnit.ofObservations .continuous days observations, unit.OfOneApp) ↔
      TraceUnit.FunctionsOfOneApp observations days) ∧
    ∀ (unit : TraceUnit) (σ : Type) [RandomSource σ] (apps : AppTable)
      (provisioning : Provisioning) (duration : UInt64) (s : σ) (t : GeneratedTrace),
      (buildTrace apps provisioning duration unit s).1 = .ok t → t.Attributed unit := by
  refine ⟨?_, TraceUnit.forall_ofOneApp_iff observations days, ?_⟩
  · exact fun unit hunit => TraceUnit.ofOneFunction_of_continuous observations days hunit
  · intro unit σ _ apps provisioning duration s t h
    exact (reports_of_buildTrace h).attributed

/-- The idle function on the next day. -/
def nextDay : Observation := { idleObservation with day := 2 }

/-- Two idle days of one application are credited to it. -/
theorem ofObservations_attributed_idle :
    TraceUnit.FunctionsOfOneApp [idleObservation, nextDay] 2 ∧
      ∃ t, (buildTrace idleTable .standard (2 * dayMs) ⟨"f", [some idleObservation, some nextDay]⟩
          (WordCycle.ofList [1])).1 = .ok t ∧
        t.contributingDays = [1, 2] ∧ ∀ d ∈ t.contributingDays, t.app = some "a" := by
  have hone : TraceUnit.FunctionsOfOneApp [idleObservation, nextDay] 2 :=
    TraceUnit.functionsOfOneApp_of_forall 2 (by decide)
  refine ⟨hone, ?_⟩
  obtain ⟨-, hiff, hattributed⟩ := ofObservations_attributed [idleObservation, nextDay] 2
  have hobstacle : TraceUnit.obstacle? idleTable (2 * dayMs)
      ⟨"f", [some idleObservation, some nextDay]⟩ = none := by decide
  obtain ⟨t, hbuilt, hreports⟩ :=
    exists_reports_of_obstacle? hobstacle .standard (WordCycle.ofList [1])
  have hunit : ⟨"f", [some idleObservation, some nextDay]⟩ ∈
      TraceUnit.ofObservations .continuous 2 [idleObservation, nextDay] :=
    List.mem_singleton.mpr rfl
  refine ⟨t, hbuilt, hreports.contributingDays, fun d hd => ?_⟩
  have hdays := (hattributed _ _ _ _ _ _ _ hbuilt).everyDay.mp (hiff.mpr hone _ hunit)
  obtain ⟨o, ho, happ⟩ := hdays d hd
  rcases List.mem_pair.mp (List.mem_of_getElem? ho) with ho | ho
  · rw [happ, Option.some.inj ho]
    rfl
  · rw [happ, Option.some.inj ho]
    rfl

/-- The idle function on the next day, under another application. -/
def movedObservation : Observation := { nextDay with app := "b" }

/-- The applications of both days. -/
def movedTable : AppTable := ⟨[⟨"a", 2, ⟨0⟩⟩, ⟨"b", 1, ⟨0⟩⟩]⟩

/-- A function that moves from one application to another has one trace, and the first application
is credited with both days. -/
theorem sharedFunction_credited :
    let unit : TraceUnit := ⟨"f", [some idleObservation, some movedObservation]⟩
    TraceUnit.ofObservations .continuous 2 [idleObservation, movedObservation] = [unit] ∧
      ¬ unit.OfOneApp ∧
      ∃ t, (buildTrace movedTable .standard (2 * dayMs) unit (WordCycle.ofList [1])).1 = .ok t ∧
        t.contributingDays = [1, 2] ∧ t.app = some "a" := by
  intro unit
  refine ⟨rfl, ?_, ?_⟩
  · intro h
    exact absurd (h idleObservation movedObservation (by simp [unit]) (by simp [unit])) (by decide)
  · have hobstacle : unit.obstacle? movedTable (2 * dayMs) = none := by decide
    obtain ⟨t, hbuilt, hreports⟩ :=
      exists_reports_of_obstacle? hobstacle .standard (WordCycle.ofList [1])
    exact ⟨t, hbuilt, hreports.contributingDays, hreports.app⟩

end WorkloadSynth
