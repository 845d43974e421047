import Mathlib
import WorkloadSynth.Proofs.Double
import WorkloadSynth.Proofs.Generate

/-!
# Two runs that differ in their counts

Two lists of observations agree in everything but the invocation counts (`Observation.Twins`).  The
runs over them are compared step by step: each function of a run gets one lemma that relates its
two results, and the state of the random source is the same behind every one of them.  That rests
on resampling, which takes one word per minute whatever it resamples.
-/

namespace WorkloadSynth

/-! ## §1 — words that a day takes -/

section Words

variable {σ : Type} [RandomSource σ]

theorem Ecdf.draw_state (ecdf : Ecdf) (s : σ) : (ecdf.draw s).2 = afterWord s := rfl

theorem ColumnSource.empirical_state (ecdf : Ecdf) (n : Nat) (s : σ) :
    ((empirical ecdf).generate n s).2 = afterWord^[n] s :=
  drawMany_state ecdf.draw_state n s

theorem Ecdf.stepsFrom_cons_ne_nil (total rank : Nat) (x : Float) (xs : List Float) :
    stepsFrom total rank (x :: xs) ≠ [] := by
  rw [stepsFrom]
  split
  · exact List.cons_ne_nil _ _
  · split
    · exact List.cons_ne_nil _ _
    · exact List.cons_ne_nil _ _

/-- Finite samples have an empirical distribution. -/
theorem Ecdf.exists_ofSamples {samples : List Float} (hne : samples ≠ [])
    (hfin : ∀ x ∈ samples, x.isFinite = true) : ∃ ecdf, ofSamples samples = some ecdf := by
  have hfilter : samples.filter Float.isFinite = samples := List.filter_eq_self.mpr hfin
  have hsorted : samples.mergeSort Double.totalLe ≠ [] := by
    intro h
    have hlen : (samples.mergeSort Double.totalLe).length = samples.length :=
      List.length_mergeSort samples
    rw [h] at hlen
    exact hne (List.length_eq_zero_iff.mp hlen.symm)
  unfold ofSamples
  rw [hfilter]
  obtain ⟨x, xs, hxs⟩ := List.exists_cons_of_ne_nil hsorted
  rw [hxs]
  dsimp only
  obtain ⟨first, rest, hsteps⟩ := List.exists_cons_of_ne_nil
    (stepsFrom_cons_ne_nil (x :: xs).length 1 x xs)
  rw [hsteps]
  exact ⟨_, rfl⟩

/-- The words that the counts of a day take: none for a timer, one per minute otherwise. -/
theorem invocationSource_state {o : Observation} (h : o.invocations ≠ []) (s : σ) :
    (o.invocationSource.generate minutesPerDay s).2 =
      if o.trigger.isTimer then s else afterWord^[minutesPerDay] s := by
  by_cases ht : o.trigger.isTimer = true
  · rw [Observation.invocationSource_of_timer ht, if_pos ht]
    rfl
  -- counts are finite numbers, so there is something to resample from
  · have hne : o.samples ≠ [] := fun hz => h (List.map_eq_nil_iff.mp hz)
    have hfin : ∀ x ∈ o.samples, x.isFinite = true := by
      intro x hx
      obtain ⟨n, -, rfl⟩ := List.mem_map.mp hx
      exact Double.isFinite_toFloat n
    obtain ⟨ecdf, hecdf⟩ := Ecdf.exists_ofSamples hne hfin
    have hsource : o.invocationSource = .empirical ecdf := by
      unfold Observation.invocationSource
      rw [if_neg ht, hecdf]
    rw [hsource, if_neg ht, ColumnSource.empirical_state]

end Words

/-! ## §2 — one day -/

/-- Two observations with a count for every minute that agree in everything but these counts. -/
structure Observation.Twins (o o' : Observation) : Prop where
  same : o' = { o with invocations := o'.invocations }
  minutes : o.invocations.length = minutesPerDay
  minutes' : o'.invocations.length = minutesPerDay

namespace Observation.Twins

variable {o o' : Observation}

theorem app_eq (h : o.Twins o') : o.app = o'.app := by rw [h.same]

theorem id_eq (h : o.Twins o') : o.id = o'.id := by rw [h.same]

theorem function_eq (h : o.Twins o') : o.function = o'.function := by rw [h.same]

theorem day_eq (h : o.Twins o') : o.day = o'.day := by rw [h.same]

theorem trigger_eq (h : o.Twins o') : o.trigger = o'.trigger := by rw [h.same]

theorem duration_eq (h : o.Twins o') : o.duration = o'.duration := by rw [h.same]

theorem memory_eq (h : o.Twins o') : o.memory = o'.memory := by rw [h.same]

theorem fittedSources_eq (h : o.Twins o') : o.fittedSources = o'.fittedSources := by
  unfold fittedSources
  rw [h.duration_eq, h.memory_eq]

theorem ne_nil_of_minutes {counts : List UInt64} (h : counts.length = minutesPerDay) :
    counts ≠ [] := by
  rintro rfl
  exact absurd h (by decide)

variable {σ : Type} [RandomSource σ]

theorem invocationSource_state_eq (h : o.Twins o') (s : σ) :
    (o.invocationSource.generate minutesPerDay s).2 =
      (o'.invocationSource.generate minutesPerDay s).2 := by
  rw [invocationSource_state (ne_nil_of_minutes h.minutes),
    invocationSource_state (ne_nil_of_minutes h.minutes'), h.trigger_eq]

/-- **One day of twins.** The days have counts of their own and share everything else, the state
they leave included. -/
theorem synthesizeDay_twins (h : o.Twins o') (count : UInt64) (s : σ) :
    (synthesizeDay o count s).1.execTimes = (synthesizeDay o' count s).1.execTimes ∧
      (synthesizeDay o count s).1.memories = (synthesizeDay o' count s).1.memories ∧
      (synthesizeDay o count s).1.fallback = (synthesizeDay o' count s).1.fallback ∧
      (synthesizeDay o count s).2 = (synthesizeDay o' count s).2 := by
  have hfit := h.fittedSources_eq
  have hstate := h.invocationSource_state_eq s
  have hfallback : (synthesizeDay o count s).1.fallback =
      (synthesizeDay o' count s).1.fallback := by
    rw [synthesizeDay_fallback_eq, synthesizeDay_fallback_eq, hfit]
  cases hsources : o.fittedSources with
  | error e =>
    have hsources' := hfit ▸ hsources
    refine ⟨?_, ?_, hfallback, ?_⟩
    · rw [synthesizeDay_execTimes_of_fallback o count s hsources,
        synthesizeDay_execTimes_of_fallback o' count s hsources', h.duration_eq]
    · rw [synthesizeDay_memories_of_fallback o count s hsources,
        synthesizeDay_memories_of_fallback o' count s hsources', h.memory_eq]
    · rw [synthesizeDay_state_of_fallback o count s hsources,
        synthesizeDay_state_of_fallback o' count s hsources', hstate]
  | ok sources =>
    obtain ⟨exec, memory⟩ := sources
    have hsources' := hfit ▸ hsources
    refine ⟨?_, ?_, hfallback, ?_⟩
    · rw [synthesizeDay_execTimes_of_fitted o count s hsources,
        synthesizeDay_execTimes_of_fitted o' count s hsources', hstate]
    · rw [synthesizeDay_memories_of_fitted o count s hsources,
        synthesizeDay_memories_of_fitted o' count s hsources', hstate]
    · rw [synthesizeDay_state_of_fitted o count s hsources,
        synthesizeDay_state_of_fitted o' count s hsources', hstate]

end Observation.Twins

/-! ## §3 — stitched days -/

/-- Two missing days, or the days of twins. -/
def SlotTwins : Option Observation → Option Observation → Prop := Option.Rel Observation.Twins

/-- Results of two calls that leave the same state: related values, or the same error. -/
inductive ResultTwins {α σ : Type} (R : α → α → Prop) :
    Except Error α × σ → Except Error α × σ → Prop where
  | ok {a a' : α} {s : σ} (h : R a a') : ResultTwins R (.ok a, s) (.ok a', s)
  | error {e : Error} {s : σ} : ResultTwins R (.error e, s) (.error e, s)

/-- The segments of two slots.  They share everything but the counts, and those too if the slots
are the same. -/
structure SegmentTwins (slot slot' : Option Observation) (x x' : Segment) : Prop where
  execTimes : x.columns.execTimes = x'.columns.execTimes
  memories : x.columns.memories = x'.columns.memories
  isObserved : x.isObserved = x'.isObserved
  isFallback : x.isFallback = x'.isFallback
  minutes : x.columns.OfLength minutesPerDay
  minutes' : x'.columns.OfLength minutesPerDay
  same : slot = slot' → x = x'

theorem SegmentTwins.observed {slot slot' : Option Observation} {c c' : DayColumns}
    (hexec : c.execTimes = c'.execTimes) (hmem : c.memories = c'.memories)
    (hfallback : c.fallback = c'.fallback)
    (hlen : (Segment.observed c).columns.OfLength minutesPerDay)
    (hlen' : (Segment.observed c').columns.OfLength minutesPerDay)
    (hsame : slot = slot' → c = c') : SegmentTwins slot slot' (.observed c) (.observed c') where
  execTimes := hexec
  memories := hmem
  isObserved := rfl
  isFallback := congrArg Option.isSome hfallback
  minutes := hlen
  minutes' := hlen'
  same h := congrArg Segment.observed (hsame h)

/-- The segments of two lists of slots. -/
inductive SegmentsTwins : List (Option Observation) → List (Option Observation) → List Segment →
    List Segment → Prop where
  | nil : SegmentsTwins [] [] [] []
  | cons {slot slot' : Option Observation} {slots slots' : List (Option Observation)}
      {x x' : Segment} {xs xs' : List Segment} (head : SegmentTwins slot slot' x x')
      (tail : SegmentsTwins slots slots' xs xs') :
      SegmentsTwins (slot :: slots) (slot' :: slots') (x :: xs) (x' :: xs')

section Stitch

variable {σ : Type} [RandomSource σ] (apps : AppTable)

theorem check_synthesizeDay_of_minutes {o : Observation} (h : o.invocations.length = minutesPerDay)
    (count : UInt64) (s : σ) (id : String) : (synthesizeDay o count s).1.check id = .ok () := by
  rw [check_synthesizeDay, if_neg]
  rintro ⟨-, hne⟩
  exact hne h

/-- **One slot.** -/
theorem segmentOf_twins {slot slot' : Option Observation} (h : SlotTwins slot slot') (s : σ) :
    ResultTwins (SegmentTwins slot slot') (segmentOf apps slot s) (segmentOf apps slot' s) := by
  cases h with
  | none =>
    have hzero := Columns.zeros_ofLength minutesPerDay
    exact .ok ⟨rfl, rfl, rfl, rfl, hzero, hzero, fun _ => rfl⟩
  | @some o o' h =>
    unfold segmentOf
    dsimp only
    rw [← h.app_eq]
    cases hcount : apps.functionCount o.app with
    | error e => exact .error
    | ok count =>
      obtain ⟨hexec, hmem, hfallback, hstate⟩ := h.synthesizeDay_twins count s
      dsimp only
      rw [check_synthesizeDay_of_minutes h.minutes, check_synthesizeDay_of_minutes h.minutes',
        ← hstate]
      refine .ok (.observed hexec hmem hfallback (synthesizeDay_ofLength fun _ => h.minutes)
        (synthesizeDay_ofLength fun _ => h.minutes') ?_)
      intro hsame
      rw [Option.some.inj hsame]

/-- **All slots.** -/
theorem segmentsOf_twins {slots slots' : List (Option Observation)}
    (h : List.Forall₂ SlotTwins slots slots') (s : σ) :
    ResultTwins (SegmentsTwins slots slots') (segmentsOf apps slots s)
      (segmentsOf apps slots' s) := by
  induction h generalizing s with
  | nil => exact .ok .nil
  | @cons slot slot' slots slots' hslot hslots ih =>
    have hhead := segmentOf_twins apps hslot s
    unfold segmentsOf
    -- only what the relation says about the two results is used from here on
    generalize segmentOf apps slot s = r at hhead ⊢
    generalize segmentOf apps slot' s = r' at hhead ⊢
    cases hhead with
    | error => exact .error
    | @ok x x' s hx =>
      have htail := ih s
      dsimp only
      generalize segmentsOf apps slots s = r at htail ⊢
      generalize segmentsOf apps slots' s = r' at htail ⊢
      cases htail with
      | error => exact .error
      | ok hxs => exact .ok (.cons hx hxs)

end Stitch

namespace SegmentsTwins

variable {slots slots' : List (Option Observation)} {xs xs' : List Segment}

theorem execTimes (h : SegmentsTwins slots slots' xs xs') :
    (Stitched.mk xs).columns.execTimes = (Stitched.mk xs').columns.execTimes := by
  induction h with
  | nil => rfl
  | cons head tail ih => exact congrArg₂ (· ++ ·) head.execTimes ih

theorem memories (h : SegmentsTwins slots slots' xs xs') :
    (Stitched.mk xs).columns.memories = (Stitched.mk xs').columns.memories := by
  induction h with
  | nil => rfl
  | cons head tail ih => exact congrArg₂ (· ++ ·) head.memories ih

theorem invocations_length (h : SegmentsTwins slots slots' xs xs') :
    (Stitched.mk xs).columns.invocations.length =
      (Stitched.mk xs').columns.invocations.length := by
  induction h with
  | nil => rfl
  | @cons slot slot' slots slots' x x' xs xs' head tail ih =>
    show (x.columns.invocations ++ (Stitched.mk xs).columns.invocations).length =
      (x'.columns.invocations ++ (Stitched.mk xs').columns.invocations).length
    rw [List.length_append, List.length_append, ih, head.minutes.invocations,
      head.minutes'.invocations]

theorem fitFailures (h : SegmentsTwins slots slots' xs xs') :
    (Stitched.mk xs).fitFailures = (Stitched.mk xs').fitFailures := by
  show xs.countP (·.isFallback) = xs'.countP (·.isFallback)
  induction h with
  | nil => rfl
  | cons head tail ih => rw [List.countP_cons, List.countP_cons, head.isFallback, ih]

theorem missingDays (h : SegmentsTwins slots slots' xs xs') :
    (Stitched.mk xs).missingDays = (Stitched.mk xs').missingDays := by
  show xs.countP (fun x => !x.isObserved) = xs'.countP (fun x => !x.isObserved)
  induction h with
  | nil => rfl
  | cons head tail ih => rw [List.countP_cons, List.countP_cons, head.isObserved, ih]

theorem observedFrom (h : SegmentsTwins slots slots' xs xs') (n : Nat) :
    Stitched.observedFrom xs n = Stitched.observedFrom xs' n := by
  induction h generalizing n with
  | nil => rfl
  | cons head tail ih =>
    rw [Stitched.observedFrom_cons, Stitched.observedFrom_cons, head.isObserved, ih]

theorem minutes (h : SegmentsTwins slots slots' xs xs') :
    (∀ x ∈ xs, x.columns.OfLength minutesPerDay) ∧
      ∀ x ∈ xs', x.columns.OfLength minutesPerDay := by
  induction h with
  | nil => exact ⟨fun x hx => absurd hx List.not_mem_nil, fun x hx => absurd hx List.not_mem_nil⟩
  | cons head tail ih =>
    refine ⟨?_, ?_⟩
    · intro x hx
      rcases List.mem_cons.mp hx with rfl | hx
      · exact head.minutes
      · exact ih.1 x hx
    · intro x hx
      rcases List.mem_cons.mp hx with rfl | hx
      · exact head.minutes'
      · exact ih.2 x hx

theorem getElem? (h : SegmentsTwins slots slots' xs xs') {d : Nat} {slot slot' : Option Observation}
    (hd : slots[d]? = some slot) (hd' : slots'[d]? = some slot') :
    ∃ x x', xs[d]? = some x ∧ xs'[d]? = some x' ∧ SegmentTwins slot slot' x x' := by
  induction h generalizing d with
  | nil => cases hd
  | cons head tail ih =>
    cases d with
    | zero =>
      obtain rfl := Option.some.inj hd
      obtain rfl := Option.some.inj hd'
      exact ⟨_, _, rfl, rfl, head⟩
    | succ d => exact ih hd hd'

/-- Days with the same slot have the same columns. -/
theorem columns_day (h : SegmentsTwins slots slots' xs xs') {d : Nat} {slot : Option Observation}
    (hd : slots[d]? = some slot) (hd' : slots'[d]? = some slot) :
    (Stitched.mk xs).columns.day d = (Stitched.mk xs').columns.day d := by
  obtain ⟨x, x', hx, hx', htwins⟩ := h.getElem? hd hd'
  rw [columns_day_of_segment (t := ⟨xs⟩) h.minutes.1 hx,
    columns_day_of_segment (t := ⟨xs'⟩) h.minutes.2 hx', htwins.same rfl]

end SegmentsTwins

/-! ## §4 — traces -/

/-- Two rows that agree in everything but the number of invocations. -/
def Sample.SameButCount (r r' : Sample) : Prop := r' = { r with invocations := r'.invocations }

theorem rowsOf_sameButCount {c c' : Columns} (hexec : c.execTimes = c'.execTimes)
    (hmem : c.memories = c'.memories) (hlen : c.invocations.length = c'.invocations.length)
    (times : List UInt64) (provisioning : Provisioning) :
    List.Forall₂ Sample.SameButCount (rowsOf times c provisioning)
      (rowsOf times c' provisioning) := by
  refine List.forall₂_of_length_eq_of_get ?_ ?_
  · simp only [rowsOf, List.length_map, List.length_zip, hexec, hmem, hlen]
  · intro k hk hk'
    obtain ⟨time, i, e, m, ht, -, he, hm, hrow⟩ :=
      exists_of_rowsOf_getElem? (List.getElem?_eq_getElem hk)
    obtain ⟨time', i', e', m', ht', -, he', hm', hrow'⟩ :=
      exists_of_rowsOf_getElem? (List.getElem?_eq_getElem hk')
    obtain rfl : time = time' := Option.some.inj (ht.symm.trans ht')
    obtain rfl : e = e' := Option.some.inj (he.symm.trans (hexec ▸ he'))
    obtain rfl : m = m' := Option.some.inj (hm.symm.trans (hmem ▸ hm'))
    rw [List.get_eq_getElem, List.get_eq_getElem, hrow, hrow']
    rfl

/-- The rows of a day are the rows of its columns. -/
theorem dayOf_rowsOf (times : List UInt64) (c : Columns) (provisioning : Provisioning) (d : Nat) :
    dayOf (rowsOf times c provisioning) d = rowsOf (dayOf times d) (c.day d) provisioning := by
  simp only [dayOf, rowsOf, Columns.day, List.zip_eq_zipWith, List.drop_zipWith, List.take_zipWith,
    ← List.map_drop, ← List.map_take]

/-- Two traces that agree in everything but the numbers of invocations, and in those too on the
days that have the same slot. -/
structure GeneratedTrace.Twins (slots slots' : List (Option Observation))
    (t t' : GeneratedTrace) : Prop where
  name : t.name = t'.name
  app : t.app = t'.app
  contributingDays : t.contributingDays = t'.contributingDays
  fitFailures : t.fitFailures = t'.fitFailures
  missingDays : t.missingDays = t'.missingDays
  rows : List.Forall₂ Sample.SameButCount t.trace t'.trace
  days : ∀ d slot, slots[d]? = some slot → slots'[d]? = some slot →
    dayOf t.trace d = dayOf t'.trace d

/-- Two units with the same name and the slots of twins. -/
structure TraceUnit.Twins (unit unit' : TraceUnit) : Prop where
  name : unit.name = unit'.name
  slots : List.Forall₂ SlotTwins unit.slots unit'.slots

theorem TraceUnit.app?_eq_of_twins {slots slots' : List (Option Observation)}
    (h : List.Forall₂ SlotTwins slots slots') : TraceUnit.app? slots = TraceUnit.app? slots' := by
  unfold TraceUnit.app?
  induction h with
  | nil => rfl
  | cons hslot hslots ih =>
    rw [List.findSome?_cons, List.findSome?_cons, ih]
    cases hslot with
    | none => rfl
    | some ho => rw [Option.map_some, Option.map_some, ho.app_eq]

section Build

variable {σ : Type} [RandomSource σ] (apps : AppTable)

theorem buildTrace_twins {unit unit' : TraceUnit} (h : unit.Twins unit')
    (provisioning : Provisioning) (duration : UInt64) (s : σ) :
    ResultTwins (GeneratedTrace.Twins unit.slots unit'.slots)
      (buildTrace apps provisioning duration unit s)
      (buildTrace apps provisioning duration unit' s) := by
  have hsegs := segmentsOf_twins apps h.slots s
  unfold buildTrace stitch
  rw [grid_minuteMs]
  dsimp only
  generalize segmentsOf apps unit.slots s = r at hsegs ⊢
  generalize segmentsOf apps unit'.slots s = r' at hsegs ⊢
  cases hsegs with
  | error => exact .error
  | @ok xs xs' s hsegs =>
    have hexec := hsegs.execTimes
    have hmem := hsegs.memories
    have hinv := hsegs.invocations_length
    generalize minuteGrid (gridSize duration minuteMs) = times
    dsimp only [Except.map]
    -- the columns of both runs have equal lengths, so both traces fit the grid or neither
    by_cases hlen : (Stitched.mk xs).columns.OfLength times.length
    · have hlen' : (Stitched.mk xs').columns.OfLength times.length :=
        ⟨hinv ▸ hlen.invocations, hexec ▸ hlen.execTimes, hmem ▸ hlen.memories⟩
      rw [assemble_of_length hlen, assemble_of_length hlen']
      refine .ok ⟨h.name, TraceUnit.app?_eq_of_twins h.slots, hsegs.observedFrom 1,
        hsegs.fitFailures, hsegs.missingDays, rowsOf_sameButCount hexec hmem hinv times _, ?_⟩
      intro d slot hd hd'
      dsimp only
      rw [dayOf_rowsOf, dayOf_rowsOf, hsegs.columns_day hd hd']
    · have hlen' : ¬ (Stitched.mk xs').columns.OfLength times.length := fun hlen' =>
        hlen ⟨hinv ▸ hlen'.invocations, hexec ▸ hlen'.execTimes, hmem ▸ hlen'.memories⟩
      have hmisfit : (Stitched.mk xs).columns.misfit unit.name times.length =
          (Stitched.mk xs').columns.misfit unit'.name times.length := by
        unfold Columns.misfit
        rw [hinv, hexec, hmem, h.name]
      rw [assemble_of_not_length hlen, assemble_of_not_length hlen', hmisfit]
      exact .error

end Build

/-! ## §5 — units -/

theorem rel_find? {α : Type} {R : α → α → Prop} {p : α → Bool} {xs xs' : List α}
    (h : List.Forall₂ R xs xs') (hp : ∀ x x', R x x' → p x = p x') :
    Option.Rel R (xs.find? p) (xs'.find? p) := by
  induction h with
  | nil => exact .none
  | @cons x x' xs xs' hx hxs ih =>
    rw [List.find?_cons, List.find?_cons, hp x x' hx]
    cases p x' with
    | true => exact .some hx
    | false => exact ih

section Units

variable {observations observations' : List Observation}

theorem arrange_twins (h : List.Forall₂ Observation.Twins observations observations')
    (days : Nat) :
    List.Forall₂ SlotTwins (TraceUnit.arrange observations days)
      (TraceUnit.arrange observations' days) := by
  unfold TraceUnit.arrange
  rw [List.forall₂_map_left_iff, List.forall₂_map_right_iff, List.forall₂_same]
  intro k _
  refine rel_find? h ?_
  intro o o' ho
  rw [ho.day_eq]

theorem functions_eq_of_twins (h : List.Forall₂ Observation.Twins observations observations') :
    observations.map (·.function) = observations'.map (·.function) := by
  induction h with
  | nil => rfl
  | cons ho hos ih => rw [List.map_cons, List.map_cons, ho.function_eq, ih]

theorem filter_function_twins (h : List.Forall₂ Observation.Twins observations observations')
    (function : String) :
    List.Forall₂ Observation.Twins (observations.filter fun o => o.function = function)
      (observations'.filter fun o => o.function = function) := by
  refine List.rel_filter ?_ h
  intro o o' ho
  dsimp only
  rw [ho.function_eq]

theorem ofGroup_twins (h : List.Forall₂ Observation.Twins observations observations')
    (days : Nat) (function : String) :
    (TraceUnit.ofGroup days (function, observations)).Twins
      (TraceUnit.ofGroup days (function, observations')) := by
  refine ⟨?_, arrange_twins h days⟩
  unfold TraceUnit.ofGroup
  cases h with
  | nil => rfl
  | cons ho hos => exact congrArg (fun id => (some id).getD "") ho.id_eq

/-- Twins are arranged in the same way. -/
theorem units_twins (h : List.Forall₂ Observation.Twins observations observations')
    (config : Config) :
    List.Forall₂ TraceUnit.Twins (config.units observations) (config.units observations') := by
  unfold Config.units TraceUnit.ofObservations
  cases config.mode with
  | daily =>
    dsimp only
    rw [List.forall₂_map_left_iff, List.forall₂_map_right_iff]
    refine h.imp ?_
    intro o o' ho
    refine ⟨?_, .cons (.some ho) .nil⟩
    unfold TraceUnit.ofObservation
    rw [ho.function_eq, ho.id_eq]
  | continuous =>
    unfold TraceUnit.groupByFunction
    rw [functions_eq_of_twins h]
    dsimp only
    rw [List.map_map, List.map_map, List.forall₂_map_left_iff, List.forall₂_map_right_iff,
      List.forall₂_same]
    intro function _
    exact ofGroup_twins (filter_function_twins h function) config.days function

end Units

/-! ## §6 — runs -/

/-- Two outcomes that go on from the same progress. -/
inductive OutcomeTwins {σ : Type} (slots slots' : List (Option Observation)) :
    UnitOutcome σ → UnitOutcome σ → Prop where
  | fail (e : Error) (p : Progress σ) : OutcomeTwins slots slots' (.fail e p) (.fail e p)
  | skip (p : Progress σ) : OutcomeTwins slots slots' (.skip p) (.skip p)
  | emit {t t' : GeneratedTrace} (h : GeneratedTrace.Twins slots slots' t t') (p : Progress σ) :
      OutcomeTwins slots slots' (.emit t p) (.emit t' p)

theorem listWritten_twins {σ : Type} {slots slots' : List (Option Observation)}
    {t t' : GeneratedTrace} (h : GeneratedTrace.Twins slots slots' t t') (p : Progress σ) :
    p.listWritten t = p.listWritten t' := by
  unfold Progress.listWritten
  rw [h.contributingDays, h.app, h.name]

section Run

variable {σ : Type} [RandomSource σ] (apps : AppTable) (config : Config)

theorem processUnit_twins {unit unit' : TraceUnit} (h : unit.Twins unit') (p : Progress σ) :
    OutcomeTwins unit.slots unit'.slots (processUnit apps config unit p)
      (processUnit apps config unit' p) := by
  have hbuild := buildTrace_twins apps h config.provisioning config.durationMs p.source
  unfold processUnit
  generalize buildTrace apps config.provisioning config.durationMs unit p.source = r at hbuild ⊢
  generalize buildTrace apps config.provisioning config.durationMs unit' p.source = r' at hbuild ⊢
  cases hbuild with
  | @error e s =>
    cases e with
    -- a mismatch is passed over, any other error ends both runs
    | schemaMismatch => exact .skip _
    | _ => exact .fail _ _
  | @ok t t' s ht =>
    have hdropped : p.countDropped s t = p.countDropped s t' := by
      unfold Progress.countDropped
      rw [ht.fitFailures]
    have hbuilt : p.countBuilt s t = p.countBuilt s t' := by
      unfold Progress.countBuilt
      rw [ht.fitFailures, ht.missingDays]
    dsimp only
    rw [ht.fitFailures, hdropped, hbuilt]
    split
    · exact .skip _
    · exact .emit ht _

/-- **Runs over the units of twins.** They come equally far, and hand over the traces of twins. -/
theorem recordedRun_twins {units units' : List TraceUnit}
    (h : List.Forall₂ TraceUnit.Twins units units') (p : Progress σ)
    (log log' : List GeneratedTrace) :
    (recordedRun apps config takeAll units p log).1 =
        (recordedRun apps config takeAll units' p log').1 ∧
      List.Forall₂ (fun a b => GeneratedTrace.Twins a.1.slots b.1.slots a.2 b.2)
        (handedOver apps config units p) (handedOver apps config units' p) := by
  -- both runs reach the next unit with the same progress
  induction h generalizing p log log' with
  | nil => exact ⟨rfl, .nil⟩
  | @cons unit unit' units units' hunit hunits ih =>
    have hstep := processUnit_twins apps config hunit p
    unfold handedOver
    generalize hout : processUnit apps config unit p = r at hstep ⊢
    generalize hout' : processUnit apps config unit' p = r' at hstep ⊢
    cases hstep with
    | fail e p' =>
      rw [recordedRun_of_fail takeAll hout, recordedRun_of_fail takeAll hout']
      exact ⟨rfl, .nil⟩
    | skip p' =>
      rw [recordedRun_of_skip takeAll hout, recordedRun_of_skip takeAll hout']
      exact ih p' log log'
    | @emit t t' ht p' =>
      rw [recordedRun_of_emit takeAll hout, recordedRun_of_emit takeAll hout']
      dsimp only [takeAll]
      rw [← listWritten_twins ht p']
      obtain ⟨hrun, hrest⟩ := ih (p'.listWritten t) (log ++ [t]) (log' ++ [t'])
      exact ⟨hrun, .cons ht hrest⟩

/-- **Counts leak into nothing else.** Runs over twins whose sinks take every trace return the same
result, report, state and index.  The traces handed over are those of twins: they agree in
everything but the numbers of invocations, and in those too on every day whose slot is the same. -/
theorem generateTraces_ignores_counts {observations observations' : List Observation}
    (h : List.Forall₂ Observation.Twins observations observations') (source : σ)
    (index : AuditIndex) :
    let run := (generateTraces apps config (recorder takeAll) observations source index).run []
    let run' := (generateTraces apps config (recorder takeAll) observations' source index).run []
    let traces := handedOver apps config (config.units observations) (.initial source index)
    let traces' := handedOver apps config (config.units observations') (.initial source index)
    run.1 = run'.1 ∧ run.2 = traces.map (·.2) ∧ run'.2 = traces'.map (·.2) ∧
      List.Forall₂ (fun a b => GeneratedTrace.Twins a.1.slots b.1.slots a.2 b.2)
        traces traces' := by
  intro run run' traces traces'
  have hunits := units_twins h config
  obtain ⟨hrun, htraces⟩ := recordedRun_twins apps config hunits (.initial source index) [] []
  exact ⟨hrun, recordedRun_takeAll apps config _ _ [], recordedRun_takeAll apps config _ _ [],
    htraces⟩

/-- Two timers that go off more and less often are handed over with other invocations, and nothing
else changes. -/
theorem generateTraces_ignores_counts_timers :
    let observations := [timerObservation, otherTimer]
    let observations' :=
      [{ timerObservation with invocations := List.replicate minutesPerDay 3 },
        { otherTimer with invocations := List.replicate minutesPerDay 0 }]
    List.Forall₂ Observation.Twins observations observations' ∧
      let run := (generateTraces idleTable oneDayConfig (recorder takeAll) observations
        (WordCycle.ofList [1, 2]) (.ofTable idleTable)).run []
      let run' := (generateTraces idleTable oneDayConfig (recorder takeAll) observations'
        (WordCycle.ofList [1, 2]) (.ofTable idleTable)).run []
      run.1 = run'.1 ∧ run.2.map (·.firstRow?) = [some (1, 0.0), some (1, 0.0)] ∧
        run'.2.map (·.firstRow?) = [some (3, 0.0), some (0, 0.0)] := by
  intro observations observations'
  have htwins : List.Forall₂ Observation.Twins observations observations' :=
    .cons ⟨rfl, List.length_replicate, List.length_replicate⟩
      (.cons ⟨rfl, List.length_replicate, List.length_replicate⟩ .nil)
  have hrows : ((generateTraces idleTable oneDayConfig (recorder takeAll) observations
      (WordCycle.ofList [1, 2]) (.ofTable idleTable)).run []).2.map (·.firstRow?) =
        [some (1, 0.0), some (1, 0.0)] := by
    decide +kernel
  have hrows' : ((generateTraces idleTable oneDayConfig (recorder takeAll) observations'
      (WordCycle.ofList [1, 2]) (.ofTable idleTable)).run []).2.map (·.firstRow?) =
        [some (3, 0.0), some (0, 0.0)] := by
    decide +kernel
  exact ⟨htwins, (generateTraces_ignores_counts idleTable oneDayConfig htwins
    (WordCycle.ofList [1, 2]) (.ofTable idleTable)).1, hrows, hrows'⟩

end Run

end WorkloadSynth
