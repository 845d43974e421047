import WorkloadSynth.Proofs.Accounting
import WorkloadSynth.Proofs.AuditIndex

/-!
# What the audit index lists

Each trace that a run writes is credited to the application of its earliest observed day, and a
trace without an observed day to none.  The index at the end of a run is the one at its beginning
after these credits.  As the fate of a unit needs its applications to be known, no credit is lost.
-/

namespace WorkloadSynth

/-! ## §1 — the earliest day -/

namespace TraceUnit

theorem mem_daysFrom_iff {slots : List (Option Observation)} {n d : Nat} :
    d ∈ daysFrom slots n ↔ n ≤ d ∧ ∃ o, slots[d - n]? = some (some o) := by
  induction slots generalizing n with
  | nil => simp [daysFrom]
  | cons slot slots ih =>
    -- a day behind the first slot
    have hbehind : (n + 1 ≤ d ∧ ∃ o, slots[d - (n + 1)]? = some (some o)) ↔
        n < d ∧ ∃ o, (slot :: slots)[d - n]? = some (some o) := by
      refine and_congr_right fun hlt => ?_
      rw [show d - n = d - (n + 1) + 1 by omega, List.getElem?_cons_succ]
    have hfirst : (slot :: slots)[n - n]? = some slot := by
      rw [Nat.sub_self, List.getElem?_cons_zero]
    cases slot with
    | none =>
      rw [daysFrom, ih, hbehind]
      constructor
      · rintro ⟨hlt, ho⟩
        exact ⟨Nat.le_of_lt hlt, ho⟩
      · rintro ⟨hle, o, ho⟩
        refine ⟨Nat.lt_of_le_of_ne hle ?_, o, ho⟩
        rintro rfl
        rw [hfirst] at ho
        cases ho
    | some o =>
      rw [daysFrom, List.mem_cons, ih, hbehind]
      constructor
      · rintro (rfl | ⟨hlt, ho⟩)
        · exact ⟨Nat.le_refl d, o, hfirst⟩
        · exact ⟨Nat.le_of_lt hlt, ho⟩
      · rintro ⟨hle, ho⟩
        rcases Nat.eq_or_lt_of_le hle with rfl | hlt
        · exact .inl rfl
        · exact .inr ⟨hlt, ho⟩

theorem daysFrom_eq_nil_iff {slots : List (Option Observation)} {n : Nat} :
    daysFrom slots n = [] ↔ ∀ slot ∈ slots, slot = none := by
  induction slots generalizing n with
  | nil => simp [daysFrom]
  | cons slot slots ih =>
    cases slot with
    | none => simp [daysFrom, ih]
    | some o => simp [daysFrom]

/-- The first observed slot is the slot of the first observed day. -/
theorem slot_of_head?_daysFrom (slots : List (Option Observation)) (n : Nat) :
    ((daysFrom slots n).head?.bind fun d => (slots[d - n]?).join) = slots.findSome? id := by
  induction slots generalizing n with
  | nil => rfl
  | cons slot slots ih =>
    cases slot with
    | some o =>
      show ((some o :: slots)[n - n]?).join = some o
      rw [Nat.sub_self]
      rfl
    | none =>
      show ((daysFrom slots (n + 1)).head?.bind fun d => ((none :: slots)[d - n]?).join) =
        slots.findSome? id
      rw [← ih (n + 1)]
      cases hhead : (daysFrom slots (n + 1)).head? with
      | none => rfl
      | some d =>
        -- the day is behind the slot that is missing
        have hle : n + 1 ≤ d := (mem_daysFrom_iff.mp (List.mem_of_head? hhead)).1
        obtain ⟨k, rfl⟩ := Nat.exists_eq_add_of_le hle
        rw [Option.bind_some, Option.bind_some, show n + 1 + k - n = k + 1 by omega,
          show n + 1 + k - (n + 1) = k by omega, List.getElem?_cons_succ]

theorem app?_eq_map (slots : List (Option Observation)) :
    app? slots = (slots.findSome? id).map (·.app) := by
  unfold app?
  rw [List.map_findSome?]
  rfl

end TraceUnit

namespace GeneratedTrace

/-- The observation behind the earliest contributing day of a trace. -/
def earliest? (t : GeneratedTrace) (unit : TraceUnit) : Option Observation :=
  t.contributingDays.head?.bind fun day => (unit.slots[day - 1]?).join

/-- The addition to the index that a written trace makes, if it makes one. -/
def credit? (t : GeneratedTrace) : Option (String × String) :=
  if t.contributingDays.isEmpty then none else t.app.map fun app => (app, t.name)

variable {t : GeneratedTrace} {unit : TraceUnit}

theorem Reports.app_eq (h : t.Reports unit) : t.app = (t.earliest? unit).map (·.app) := by
  unfold earliest?
  rw [h.app, TraceUnit.app?_eq_map, h.contributingDays]
  exact congrArg _ (TraceUnit.slot_of_head?_daysFrom unit.slots 1).symm

/-- A trace is credited to the application of its earliest day. -/
theorem Reports.credit?_eq (h : t.Reports unit) :
    t.credit? = (t.earliest? unit).map fun o => (o.app, t.name) := by
  unfold credit?
  rw [h.app_eq, Option.map_map]
  cases hdays : t.contributingDays with
  | nil =>
    have hnone : t.earliest? unit = none := by
      unfold earliest?
      rw [hdays]
      rfl
    rw [hnone]
    rfl
  | cons d days => rfl

/-- A trace has an earliest day if it has any. -/
theorem Reports.earliest?_isSome (h : t.Reports unit) :
    (t.earliest? unit).isSome = decide (t.contributingDays ≠ []) := by
  unfold earliest?
  rw [h.contributingDays]
  show ((TraceUnit.daysFrom unit.slots 1).head?.bind fun d => (unit.slots[d - 1]?).join).isSome = _
  rw [TraceUnit.slot_of_head?_daysFrom, Bool.eq_iff_iff, List.findSome?_isSome_iff,
    decide_eq_true_iff, TraceUnit.observedDays, Ne, TraceUnit.daysFrom_eq_nil_iff]
  push Not
  simp only [id_eq, Option.isSome_iff_ne_none]

theorem mem_slots_of_earliest? {o : Observation} (h : t.earliest? unit = some o) :
    some o ∈ unit.slots := by
  obtain ⟨d, -, hd⟩ := Option.bind_eq_some_iff.mp h
  exact List.mem_of_getElem? (Option.join_eq_some_iff.mp hd)

/-- Does a trace say that nothing happened? -/
def IsZero (t : GeneratedTrace) : Prop :=
  ∀ row ∈ t.trace, row.invocations = 0 ∧ row.exec = 0 ∧ row.memUsed = 0.0

end GeneratedTrace

section Unit

variable {σ : Type} [RandomSource σ] {apps : AppTable} {config : Config} {unit : TraceUnit}

theorem segmentsFrom_of_missing {slots : List (Option Observation)}
    (h : ∀ slot ∈ slots, slot = none) (s : σ) {segment : Segment}
    (hs : segment ∈ segmentsFrom apps slots s) : segment = .missing := by
  obtain ⟨slot, hslot, s', rfl⟩ := exists_slot_of_mem_segmentsFrom apps hs
  rw [h slot hslot]
  rfl

/-- Without an observed day there is nothing but zeros. -/
theorem unitTrace_isZero (h : unit.observedDays = []) (p : Progress σ) :
    (unitTrace apps config unit p).IsZero := by
  have hmissing := TraceUnit.daysFrom_eq_nil_iff.mp h
  have hzero : ∀ {f : Columns → List Float} {x : Float}, f (.zeros minutesPerDay) =
      List.replicate minutesPerDay 0.0 →
      x ∈ (segmentsFrom apps unit.slots p.source).flatMap (fun s => f s.columns) → x = 0.0 := by
    intro f x hf hx
    obtain ⟨segment, hsegment, hx⟩ := List.mem_flatMap.mp hx
    obtain rfl := segmentsFrom_of_missing hmissing p.source hsegment
    rw [show Segment.missing.columns = .zeros minutesPerDay from rfl, hf] at hx
    exact List.eq_of_mem_replicate hx
  intro row hrow
  obtain ⟨k, hk⟩ := List.mem_iff_getElem?.mp hrow
  obtain ⟨time, i, e, m, -, hi, he, hm, rfl⟩ := exists_of_rowsOf_getElem? hk
  obtain rfl : i = 0.0 := hzero (f := (·.invocations)) rfl (List.mem_of_getElem? hi)
  obtain rfl : e = 0.0 := hzero (f := (·.execTimes)) rfl (List.mem_of_getElem? he)
  obtain rfl : m = 0.0 := hzero (f := (·.memories)) rfl (List.mem_of_getElem? hm)
  exact ⟨(by decide : (0.0 : Float).toUInt64 = 0), (by decide : (0.0 : Float).toUInt64 = 0),
    (by decide : Double.truncate 0.0 = 0.0)⟩

end Unit

/-- The unit of a function has no observed day exactly if all its rows lie outside the trace. -/
theorem TraceUnit.observedDays_ofGroup_eq_nil_iff (days : Nat)
    (group : String × List Observation) :
    (ofGroup days group).observedDays = [] ↔ ∀ o ∈ group.2, o.day = 0 ∨ days < o.day := by
  refine daysFrom_eq_nil_iff.trans ?_
  show (∀ slot ∈ arrange group.2 days, slot = none) ↔ _
  unfold arrange
  rw [List.forall_mem_map]
  simp only [List.mem_range, List.find?_eq_none, decide_eq_true_eq]
  constructor
  · intro h o ho
    by_contra hin
    have hday : o.day - 1 < days := by omega
    exact h (o.day - 1) hday o ho (by omega)
  · intro h k hk o ho hday
    have := h o ho
    omega

/-! ## §2 — the index of a run -/

section Course

variable {σ : Type} [RandomSource σ] {apps : AppTable} {config : Config}
  {units : List TraceUnit} {p q : Progress σ} {sent : List (TraceUnit × GeneratedTrace)}

omit [RandomSource σ] in
theorem Progress.index_listWritten (p : Progress σ) (t : GeneratedTrace) :
    (p.listWritten t).index = p.index.addAll t.credit?.toList := by
  unfold listWritten GeneratedTrace.credit?
  dsimp only
  split
  · rfl
  · cases t.app with
    | none => rfl
    | some app => rfl

/-- **The index grows by the credits of the traces that are written.** -/
theorem Completes.index_eq (h : Completes apps config units p sent q) :
    q.index = p.index.addAll (sent.filterMap fun x => x.2.credit?) := by
  induction h with
  | nil p => rfl
  | misfit _ _ ih => exact ih
  | dropped _ _ _ ih => exact ih
  | @written unit units p q source sent _ _ _ ih =>
    rw [ih, Progress.index_listWritten, ← AuditIndex.addAll_append, List.filterMap_cons]
    cases (unitTrace apps config unit p).credit? with
    | none => rfl
    | some x => rfl

/-- Every trace of a run is the trace of its unit in some state. -/
theorem Completes.exists_unitTrace (h : Completes apps config units p sent q)
    {x : TraceUnit × GeneratedTrace} (hx : x ∈ sent) :
    ∃ p : Progress σ, x.2 = unitTrace apps config x.1 p := by
  induction h with
  | nil p => exact absurd hx List.not_mem_nil
  | misfit _ _ ih => exact ih hx
  | dropped _ _ _ ih => exact ih hx
  | @written unit units p q source sent _ _ _ ih =>
    rcases List.mem_cons.mp hx with rfl | hx
    · exact ⟨p, rfl⟩
    · exact ih hx

theorem TraceUnit.stitchable_of_fate {unit : TraceUnit} (h : unit.fate apps config = .written)
    {o : Observation} (ho : some o ∈ unit.slots) : o.Stitchable apps := by
  unfold fate at h
  cases hobs : unit.obstacle? apps config.durationMs with
  | none => exact stitchable_of_obstacle?_eq_none hobs ho
  | some e =>
    rw [hobs] at h
    dsimp only at h
    split at h <;> cases h

/-- Credits go to applications of the table. -/
theorem Completes.mem_apps_of_credit? (h : Completes apps config units p sent q)
    {x : TraceUnit × GeneratedTrace} (hx : x ∈ sent) {credit : String × String}
    (hcredit : x.2.credit? = some credit) : credit.1 ∈ apps.apps := by
  rw [(h.reports hx).credit?_eq] at hcredit
  obtain ⟨o, ho, rfl⟩ := Option.map_eq_some_iff.mp hcredit
  have hfate : x.1.fate apps config = .written := by
    have hmem : x.1 ∈ sent.map (·.1) := List.mem_map_of_mem hx
    rw [h.sent_units] at hmem
    exact of_decide_eq_true (List.mem_filter.mp hmem).2
  obtain ⟨record, hrecord, -⟩ :=
    (TraceUnit.stitchable_of_fate hfate (GeneratedTrace.mem_slots_of_earliest? ho)).knows
  exact AppTable.mem_apps_iff.mpr ⟨record, hrecord⟩

/-- The credits for an application are the names of its traces. -/
theorem added_filterMap_credit? (h : ∀ x ∈ sent, x.2.Reports x.1) (app : String) :
    AuditIndex.added (sent.filterMap fun x => x.2.credit?) app =
      (sent.filter fun x => (x.2.earliest? x.1).any (·.app = app)).map (·.2.name) := by
  unfold AuditIndex.added
  induction sent with
  | nil => rfl
  | cons x sent ih =>
    have ih' := ih fun y hy => h y (List.mem_cons_of_mem _ hy)
    rw [List.filterMap_cons, (h x List.mem_cons_self).credit?_eq]
    cases hx : x.2.earliest? x.1 with
    | none =>
      rw [List.filter_cons_of_neg (by simp [hx])]
      exact ih'
    | some o =>
      by_cases ho : o.app = app
      · simp only [Option.map_some]
        rw [List.filter_cons_of_pos (by simp [ho]), List.filter_cons_of_pos (by simp [hx, ho]),
          List.map_cons, List.map_cons, ih']
      · simp only [Option.map_some]
        rw [List.filter_cons_of_neg (by simp [ho]), List.filter_cons_of_neg (by simp [hx, ho]),
          ih']

/-- The names of all credits are those of the traces with an observed day. -/
theorem filterMap_credit?_names (h : ∀ x ∈ sent, x.2.Reports x.1) :
    (sent.filterMap fun x => x.2.credit?).map (·.2) =
      ((sent.map (·.2)).filter fun t => t.contributingDays ≠ []).map (·.name) := by
  induction sent with
  | nil => rfl
  | cons x sent ih =>
    have ih' := ih fun y hy => h y (List.mem_cons_of_mem _ hy)
    have hx := h x List.mem_cons_self
    have hsome := hx.earliest?_isSome
    rw [List.filterMap_cons, hx.credit?_eq, List.map_cons]
    cases hearliest : x.2.earliest? x.1 with
    | none =>
      rw [hearliest] at hsome
      rw [List.filter_cons_of_neg (by rw [← hsome]; decide)]
      exact ih'
    | some o =>
      rw [hearliest] at hsome
      rw [List.filter_cons_of_pos (by rw [← hsome]; rfl), List.map_cons, ← ih']
      rfl

end Course

/-! ## §3 — the listing -/

/-- What the index of a run says about the traces that were handed over, each with its unit. -/
structure Listing (apps : AppTable) (config : Config) (observations : List Observation)
    (log : List GeneratedTrace) (index : AuditIndex) (sent : List (TraceUnit × GeneratedTrace)) :
    Prop where
  traces : log = sent.map (·.2)
  /-- The units are those that were neither passed over nor dropped. -/
  units : sent.map (·.1) =
    (config.units observations).filter fun unit => unit.fate apps config = .written
  name : ∀ x ∈ sent, x.2.name = x.1.name
  days : ∀ x ∈ sent, x.2.contributingDays = x.1.observedDays
  /-- An application lists the traces whose earliest observed day belongs to it, in order. -/
  ids : ∀ app, index.ids app =
    (sent.filter fun x => (x.2.earliest? x.1).any (·.app = app)).map (·.2.name)
  /-- Every trace with an observed day is listed once, and there is nothing else. -/
  once : (index.entries.flatMap (·.ids)).Perm
    ((log.filter fun t => t.contributingDays ≠ []).map (·.name))
  zero : ∀ t ∈ log, t.contributingDays = [] → t.IsZero
  /-- Applications keep their order and their data. -/
  records : index.entries.map (·.record) = (AuditIndex.ofTable apps).entries.map (·.record)

section Run

variable {σ : Type} [RandomSource σ] {apps : AppTable} {config : Config}

theorem Completes.listing {observations : List Observation} {source : σ} {q : Progress σ}
    {sent : List (TraceUnit × GeneratedTrace)}
    (h : Completes apps config (config.units observations) (.initial source (.ofTable apps)) sent q) :
    Listing apps config observations (sent.map (·.2)) q.index sent := by
  have hreports : ∀ x ∈ sent, x.2.Reports x.1 := fun x hx => h.reports hx
  have hindex : q.index =
      (AuditIndex.ofTable apps).addAll (sent.filterMap fun x => x.2.credit?) := h.index_eq
  have hknown : ∀ x ∈ sent.filterMap (fun x => x.2.credit?), x.1 ∈ apps.apps := by
    intro credit hcredit
    obtain ⟨x, hx, hcredit⟩ := List.mem_filterMap.mp hcredit
    exact h.mem_apps_of_credit? hx hcredit
  refine ⟨rfl, h.sent_units, fun x hx => (hreports x hx).name,
    fun x hx => (hreports x hx).contributingDays, ?_, ?_, ?_, ?_⟩
  · intro app
    rw [← added_filterMap_credit? hreports, hindex]
    by_cases happ : app ∈ apps.apps
    · exact AuditIndex.ids_addAll_ofTable _ _ happ
    -- nothing is credited to an application that is not in the table
    · rw [AuditIndex.ids_of_not_mem_apps _ (by rwa [AuditIndex.apps_addAll,
        AuditIndex.apps_ofTable])]
      unfold AuditIndex.added
      rw [List.filter_eq_nil_iff.mpr, List.map_nil]
      intro credit hcredit heq
      exact happ (of_decide_eq_true heq ▸ hknown credit hcredit)
  · rw [hindex, ← filterMap_credit?_names hreports]
    refine AuditIndex.flatMap_ids_addAll _ _ ?_ ?_ ?_
    · rw [AuditIndex.apps_ofTable]
      exact apps.apps_nodup
    · exact fun e he => AuditIndex.ids_eq_nil_of_mem_ofTable apps he
    · rw [AuditIndex.apps_ofTable]
      exact hknown
  · intro t ht hdays
    obtain ⟨x, hx, rfl⟩ := List.mem_map.mp ht
    rw [(hreports x hx).contributingDays] at hdays
    obtain ⟨p, hp⟩ := h.exists_unitTrace hx
    rw [hp]
    exact unitTrace_isZero hdays p
  · rw [hindex]
    exact AuditIndex.records_addAll _ _

/-- **The audit index lists what was produced.** After a run that started with the index of its
table and ended well, the index lists every trace that was handed over and has an observed day once,
under the application of its earliest observed day and in the order of the sink.  Units that were
passed over or dropped are not listed, nor are the traces of zeros of functions whose rows all lie
outside the days of a trace. -/
theorem generateTraces_listing (apps : AppTable) (config : Config)
    (answer : List GeneratedTrace → GeneratedTrace → Except Error Unit)
    (observations : List Observation) (source : σ) :
    (let run := (generateTraces apps config (recorder answer) observations source
       (.ofTable apps)).run []
     run.1.1 = .ok () →
      ∃ sent, Listing apps config observations run.2 run.1.2.index sent) ∧
    ∀ group ∈ TraceUnit.groupByFunction observations,
      (TraceUnit.ofGroup config.days group).observedDays = [] ↔
        ∀ o ∈ group.2, o.day = 0 ∨ config.days < o.day := by
  refine ⟨?_, fun group _ => TraceUnit.observedDays_ofGroup_eq_nil_iff config.days group⟩
  intro run hok
  obtain ⟨sent, hrun, hlog⟩ := completes_of_generateTraces_ok hok
  refine ⟨sent, ?_⟩
  rw [show run.2 = sent.map (·.2) from hlog]
  exact hrun.listing

end Run

/-- An idle function that was observed after the last day of a week. -/
def lateObservation : Observation :=
  { idleObservation with function := "g", id := "g", day := 9 }

/-- A week of an idle function and of one that was observed too late are both handed over. -/
theorem generateTraces_listing_idle :
    let run := (generateTraces idleTable .standard (recorder takeAll)
      [idleObservation, lateObservation] (WordCycle.ofList [1]) (.ofTable idleTable)).run []
    run.1.1 = .ok () ∧ ∃ sent, Listing idleTable .standard [idleObservation, lateObservation] run.2
      run.1.2.index sent ∧ sent.map (·.2.name) = ["f", "g"] := by
  intro run
  have hunits : Config.standard.units [idleObservation, lateObservation] =
      [⟨"f", some idleObservation :: List.replicate 6 none⟩, ⟨"g", List.replicate 7 none⟩] := rfl
  have hf : TraceUnit.fate idleTable .standard
      ⟨"f", some idleObservation :: List.replicate 6 none⟩ = .written := by decide
  have hg : TraceUnit.fate idleTable .standard ⟨"g", List.replicate 7 none⟩ = .written := by decide
  have hok : run.1.1 = .ok () := by
    apply generateTraces_ok_of_fates
    rw [hunits]
    intro unit hunit e
    rcases List.mem_pair.mp hunit with rfl | rfl
    · rw [hf]
      exact nofun
    · rw [hg]
      exact nofun
  obtain ⟨sent, hlisting⟩ := (generateTraces_listing idleTable .standard takeAll
    [idleObservation, lateObservation] (WordCycle.ofList [1])).1 hok
  refine ⟨hok, sent, hlisting, ?_⟩
  have hnames : sent.map (·.2.name) = (sent.map (·.1)).map (·.name) := by
    rw [List.map_map]
    exact List.map_congr_left hlisting.name
  rw [hnames, hlisting.units, hunits, List.filter_cons_of_pos (by rw [hf]; decide),
    List.filter_cons_of_pos (by rw [hg]; decide)]
  rfl

end WorkloadSynth
