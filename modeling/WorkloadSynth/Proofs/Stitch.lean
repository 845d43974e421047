import Mathlib
import WorkloadSynth.Proofs.Day

/-!
# What stitching returns

`stitch` threads one random source through the days of a trace.  The state in front of a day is
`stateBefore`, the fold of the days in front of it, and the segment of a day is a function of that
state alone (`segmentAt`).  Whether the whole list goes through is decided without drawing
anything: each observed day has to be `Stitchable`.
-/

namespace WorkloadSynth

/-! ## §1 — blocks of equal length -/

/-- The `d`-th block of a concatenation of blocks of length `n`. -/
theorem take_drop_flatMap {α β : Type} {f : α → List β} {n : Nat} {xs : List α}
    (h : ∀ x ∈ xs, (f x).length = n) {d : Nat} {x : α} (hx : xs[d]? = some x) :
    ((xs.flatMap f).drop (d * n)).take n = f x := by
  induction xs generalizing d with
  | nil => simp at hx
  | cons y ys ih =>
    have hy : (f y).length = n := h y List.mem_cons_self
    rw [List.flatMap_cons]
    cases d with
    | zero =>
      obtain rfl : y = x := by simpa using hx
      rw [Nat.zero_mul, List.drop_zero, List.take_left' hy]
    | succ d =>
      -- block `d + 1` starts behind the whole first one
      have hlen : (f y).length ≤ (d + 1) * n := by rw [hy, Nat.succ_mul]; omega
      have hrest : (d + 1) * n - (f y).length = d * n := by rw [hy, Nat.succ_mul]; omega
      rw [List.drop_append, List.drop_of_length_le hlen, List.nil_append, hrest]
      exact ih (fun z hz => h z (List.mem_cons_of_mem y hz)) (by simpa using hx)

theorem length_flatMap_of_forall {α β : Type} {f : α → List β} {n : Nat} {xs : List α}
    (h : ∀ x ∈ xs, (f x).length = n) : (xs.flatMap f).length = xs.length * n := by
  have hmap : xs.map (fun x => (f x).length) = xs.map fun _ => n := List.map_congr_left h
  rw [List.length_flatMap, hmap, List.map_const', List.sum_replicate_nat]

/-- The part of a column, or of a trace, that belongs to day `d`. -/
def dayOf {α : Type} (column : List α) (d : Nat) : List α :=
  (column.drop (d * minutesPerDay)).take minutesPerDay

/-- The columns of day `d`. -/
def Columns.day (c : Columns) (d : Nat) : Columns :=
  ⟨dayOf c.invocations d, dayOf c.execTimes d, dayOf c.memories d⟩

/-- Do the three columns have `n` values? -/
structure Columns.OfLength (c : Columns) (n : Nat) : Prop where
  invocations : c.invocations.length = n
  execTimes : c.execTimes.length = n
  memories : c.memories.length = n

theorem Columns.zeros_ofLength (n : Nat) : (Columns.zeros n).OfLength n :=
  ⟨List.length_replicate, List.length_replicate, List.length_replicate⟩

/-- The columns of a synthesized day as columns of a trace. -/
def DayColumns.toColumns (c : DayColumns) : Columns := ⟨c.invocations, c.execTimes, c.memories⟩

/-! ## §2 — one slot -/

/-- Is the number of functions of an application known and positive? -/
def AppTable.Knows (apps : AppTable) (app : String) : Prop :=
  ∃ record, apps.get? app = some record ∧ 0 < record.count

/-- Can the day of an observation become a segment? -/
structure Observation.Stitchable (apps : AppTable) (o : Observation) : Prop where
  /-- The memory of the application can be shared out. -/
  knows : apps.Knows o.app
  /-- Only timers are used without resampling, so only they need all their minutes. -/
  minutes : o.trigger = .timer → o.invocations.length = minutesPerDay

/-- Why an observation cannot become a segment.  The application is looked up first. -/
inductive Observation.Refused (apps : AppTable) (o : Observation) : Error → Prop where
  | unknown (h : ¬ apps.Knows o.app) : Refused apps o (.missingLookup o.app)
  | minutes (h : apps.Knows o.app) (ht : o.trigger = .timer)
      (hl : o.invocations.length ≠ minutesPerDay) :
      Refused apps o (.schemaMismatch o.id .invocations minutesPerDay o.invocations.length)

theorem Observation.Refused.not_stitchable {apps : AppTable} {o : Observation} {e : Error}
    (h : o.Refused apps e) : ¬ o.Stitchable apps := by
  intro hs
  cases h with
  | unknown h => exact h hs.knows
  | minutes _ ht hl => exact hl (hs.minutes ht)

theorem AppTable.functionCount_of_get? {apps : AppTable} {app : String} {record : AppRecord}
    (h : apps.get? app = some record) (hc : 0 < record.count) :
    apps.functionCount app = .ok record.count := by
  have hne : record.count ≠ 0 := by rintro hz; rw [hz] at hc; exact absurd hc (by decide)
  unfold functionCount
  rw [h]
  exact if_neg hne

/-- The only failure of a look-up. -/
theorem AppTable.functionCount_of_not_knows {apps : AppTable} {app : String}
    (h : ¬ apps.Knows app) : apps.functionCount app = .error (.missingLookup app) := by
  unfold functionCount
  cases hg : apps.get? app with
  | none => rfl
  | some record =>
    by_cases hc : record.count = 0
    · exact if_pos hc
    · exact absurd ⟨record, hg, UInt64.pos_iff_ne_zero.mpr hc⟩ h

theorem AppTable.Knows.functionCount_eq {apps : AppTable} {app : String} (h : apps.Knows app) :
    ∃ count, 0 < count ∧ apps.functionCount app = .ok count := by
  obtain ⟨record, hg, hc⟩ := h
  exact ⟨record.count, hc, functionCount_of_get? hg hc⟩

section Slot

variable {σ : Type} [RandomSource σ] (apps : AppTable)

/-- The state behind a slot.  A missing day leaves it alone, and so does an application without a
number of functions. -/
def stateBehind (slot : Option Observation) (s : σ) : σ :=
  match slot with
  | none => s
  | some o =>
    match apps.functionCount o.app with
    | .ok count => (synthesizeDay o count s).2
    | .error _ => s

/-- The segment that a slot becomes if nothing refuses it. -/
def segmentAt (slot : Option Observation) (s : σ) : Segment :=
  match slot with
  | none => .missing
  | some o =>
    match apps.functionCount o.app with
    | .ok count => .observed (synthesizeDay o count s).1
    | .error _ => .missing

theorem segmentAt_of_functionCount {o : Observation} {count : UInt64}
    (h : apps.functionCount o.app = .ok count) (s : σ) :
    segmentAt apps (some o) s = .observed (synthesizeDay o count s).1 := by
  simp only [segmentAt, h]

theorem stateBehind_of_functionCount {o : Observation} {count : UInt64}
    (h : apps.functionCount o.app = .ok count) (s : σ) :
    stateBehind apps (some o) s = (synthesizeDay o count s).2 := by
  simp only [stateBehind, h]

/-- **One slot.** It becomes its segment, or it is refused; the state moves on in both cases. -/
theorem segmentOf_cases (slot : Option Observation) (s : σ) :
    ((∀ o, slot = some o → o.Stitchable apps) ∧
        segmentOf apps slot s = (.ok (segmentAt apps slot s), stateBehind apps slot s)) ∨
      ∃ o e, slot = some o ∧ o.Refused apps e ∧
        segmentOf apps slot s = (.error e, stateBehind apps slot s) := by
  cases slot with
  | none => exact .inl ⟨fun o ho => absurd ho (Option.some_ne_none o).symm, rfl⟩
  | some o =>
    by_cases hk : apps.Knows o.app
    · obtain ⟨count, -, hc⟩ := hk.functionCount_eq
      have hcheck := check_synthesizeDay o count s o.id
      rw [segmentAt_of_functionCount apps hc, stateBehind_of_functionCount apps hc]
      unfold segmentOf
      simp only [hc, hcheck]
      -- the application is known, so only the minutes of a timer can be at fault
      by_cases hbad : o.trigger.isTimer = true ∧ o.invocations.length ≠ minutesPerDay
      · have ht : o.trigger = .timer := Trigger.isTimer_iff.mp hbad.1
        refine .inr ⟨o, _, rfl, .minutes hk ht hbad.2, ?_⟩
        rw [if_pos hbad]
      · refine .inl ⟨?_, by rw [if_neg hbad]⟩
        intro o' ho'
        obtain rfl : o = o' := Option.some.inj ho'
        refine ⟨hk, fun ht => ?_⟩
        by_contra hl
        exact hbad ⟨Trigger.isTimer_iff.mpr ht, hl⟩
    · have hc := AppTable.functionCount_of_not_knows hk
      refine .inr ⟨o, _, rfl, .unknown hk, ?_⟩
      simp only [segmentOf, stateBehind, hc]

theorem synthesizeDay_ofLength {o : Observation} {count : UInt64} {s : σ}
    (h : o.trigger = .timer → o.invocations.length = minutesPerDay) :
    (Segment.observed (synthesizeDay o count s).1).columns.OfLength minutesPerDay := by
  refine ⟨?_, synthesizeDay_execTimes_length o count s, synthesizeDay_memories_length o count s⟩
  refine (synthesizeDay_invocations_length o count s).trans ?_
  by_cases ht : o.trigger.isTimer = true
  · rw [if_pos ht]
    exact h (Trigger.isTimer_iff.mp ht)
  · rw [if_neg ht]

theorem segmentAt_ofLength {slot : Option Observation}
    (h : ∀ o, slot = some o → o.Stitchable apps) (s : σ) :
    (segmentAt apps slot s).columns.OfLength minutesPerDay := by
  cases slot with
  | none => exact Columns.zeros_ofLength minutesPerDay
  | some o =>
    have ho := h o rfl
    obtain ⟨count, -, hc⟩ := ho.knows.functionCount_eq
    rw [segmentAt_of_functionCount apps hc]
    exact synthesizeDay_ofLength ho.minutes

end Slot

/-! ## §3 — all slots -/

section Slots

variable {σ : Type} [RandomSource σ] (apps : AppTable)

/-- The state in front of day `d`: what the days before it left. -/
def stateBefore (slots : List (Option Observation)) (s : σ) (d : Nat) : σ :=
  (slots.take d).foldl (fun s slot => stateBehind apps slot s) s

@[simp]
theorem stateBefore_zero (slots : List (Option Observation)) (s : σ) :
    stateBefore apps slots s 0 = s := rfl

@[simp]
theorem stateBefore_cons_succ (slot : Option Observation) (slots : List (Option Observation))
    (s : σ) (d : Nat) :
    stateBefore apps (slot :: slots) s (d + 1) =
      stateBefore apps slots (stateBehind apps slot s) d := rfl

/-- A missing day draws nothing. -/
theorem stateBefore_succ_of_missing {slots : List (Option Observation)} {d : Nat}
    (h : slots[d]? = some none) (s : σ) :
    stateBefore apps slots s (d + 1) = stateBefore apps slots s d := by
  unfold stateBefore
  rw [List.take_add_one, h, Option.toList_some, List.foldl_append]
  rfl

/-- The segments of all slots if none of them is refused. -/
def segmentsFrom : List (Option Observation) → σ → List Segment
  | [], _ => []
  | slot :: slots, s => segmentAt apps slot s :: segmentsFrom slots (stateBehind apps slot s)

theorem segmentsFrom_length (slots : List (Option Observation)) (s : σ) :
    (segmentsFrom apps slots s).length = slots.length := by
  induction slots generalizing s with
  | nil => rfl
  | cons slot slots ih => rw [segmentsFrom, List.length_cons, ih, List.length_cons]

/-- Each day is a function of its slot and of the state in front of it. -/
theorem segmentsFrom_getElem? (slots : List (Option Observation)) (s : σ) (d : Nat) :
    (segmentsFrom apps slots s)[d]? =
      slots[d]?.map fun slot => segmentAt apps slot (stateBefore apps slots s d) := by
  induction slots generalizing s d with
  | nil => simp [segmentsFrom]
  | cons slot slots ih =>
    cases d with
    | zero => simp [segmentsFrom]
    | succ d => simp only [segmentsFrom, List.getElem?_cons_succ, ih, stateBefore_cons_succ]

/-- The first refusal of a list of slots is at day `d`. -/
structure FirstRefusal (slots : List (Option Observation)) (d : Nat) (e : Error) : Prop where
  /-- The day was observed, and refused with `e`. -/
  refused : ∃ o, slots[d]? = some (some o) ∧ o.Refused apps e
  /-- No earlier day was refused. -/
  earlier : ∀ k < d, ∀ o, slots[k]? = some (some o) → o.Stitchable apps

theorem FirstRefusal.not_stitchable {apps : AppTable} {slots : List (Option Observation)} {d : Nat}
    {e : Error} (h : FirstRefusal apps slots d e) : ¬ ∀ o, some o ∈ slots → o.Stitchable apps := by
  intro hall
  obtain ⟨o, ho, hr⟩ := h.refused
  exact hr.not_stitchable (hall o (List.mem_of_getElem? ho))

theorem FirstRefusal.cons {apps : AppTable} {slots : List (Option Observation)} {d : Nat}
    {e : Error} {slot : Option Observation} (h : FirstRefusal apps slots d e)
    (hslot : ∀ o, slot = some o → o.Stitchable apps) :
    FirstRefusal apps (slot :: slots) (d + 1) e := by
  refine ⟨h.refused, ?_⟩
  intro k hk o ho
  cases k with
  | zero => exact hslot o (by simpa using ho)
  | succ k => exact h.earlier k (by omega) o (by simpa using ho)

/-- **All slots.** Either every observed day is stitchable and there is a segment for each slot, or
the run stops behind the first day that is refused. -/
theorem segmentsOf_cases (slots : List (Option Observation)) (s : σ) :
    ((∀ o, some o ∈ slots → o.Stitchable apps) ∧
        segmentsOf apps slots s =
          (.ok (segmentsFrom apps slots s), stateBefore apps slots s slots.length)) ∨
      ∃ d e, FirstRefusal apps slots d e ∧
        segmentsOf apps slots s = (.error e, stateBefore apps slots s (d + 1)) := by
  induction slots generalizing s with
  | nil => exact .inl ⟨fun o ho => absurd ho List.not_mem_nil, rfl⟩
  | cons slot slots ih =>
    rcases segmentOf_cases apps slot s with ⟨hslot, hseg⟩ | ⟨o, e, rfl, hr, hseg⟩
    -- the first slot went through, so the rest decides, one day later
    · rcases ih (stateBehind apps slot s) with ⟨hall, hsegs⟩ | ⟨d, e, hfirst, hsegs⟩
      · refine .inl ⟨?_, ?_⟩
        · intro o ho
          rcases List.mem_cons.mp ho with ho | ho
          · exact hslot o ho.symm
          · exact hall o ho
        · simp only [segmentsOf, hseg, hsegs, segmentsFrom, List.length_cons,
            stateBefore_cons_succ]
      · refine .inr ⟨d + 1, e, hfirst.cons hslot, ?_⟩
        simp only [segmentsOf, hseg, hsegs, stateBefore_cons_succ]
    -- the first slot is refused, and nothing behind it is looked at
    · refine .inr ⟨0, e, ⟨⟨o, rfl, hr⟩, fun k hk => absurd hk (Nat.not_lt_zero k)⟩, ?_⟩
      simp only [segmentsOf, hseg, stateBefore_cons_succ, stateBefore_zero]

theorem exists_slot_of_mem_segmentsFrom {slots : List (Option Observation)} {s : σ}
    {segment : Segment} (h : segment ∈ segmentsFrom apps slots s) :
    ∃ slot ∈ slots, ∃ s' : σ, segment = segmentAt apps slot s' := by
  induction slots generalizing s with
  | nil => simp [segmentsFrom] at h
  | cons slot slots ih =>
    rcases List.mem_cons.mp h with rfl | h
    · exact ⟨slot, List.mem_cons_self, s, rfl⟩
    · obtain ⟨slot', hmem, s', rfl⟩ := ih h
      exact ⟨slot', List.mem_cons_of_mem _ hmem, s', rfl⟩

theorem segmentAt_isObserved {slot : Option Observation}
    (h : ∀ o, slot = some o → o.Stitchable apps) (s : σ) :
    (segmentAt apps slot s).isObserved = slot.isSome := by
  cases slot with
  | none => rfl
  | some o =>
    obtain ⟨count, -, hc⟩ := (h o rfl).knows.functionCount_eq
    rw [segmentAt_of_functionCount apps hc]
    rfl

end Slots

/-! ## §4 — what a trace reports about its days -/

namespace Stitched

/-- The observed days of a list of segments whose first has number `n`. -/
def observedFrom (segments : List Segment) (n : Nat) : List Nat :=
  (segments.zipIdx n).filterMap fun (segment, day) =>
    if segment.isObserved then some day else none

theorem observedFrom_cons (segment : Segment) (segments : List Segment) (n : Nat) :
    observedFrom (segment :: segments) n =
      if segment.isObserved then n :: observedFrom segments (n + 1)
      else observedFrom segments (n + 1) := by
  cases h : segment.isObserved <;> simp [observedFrom, List.zipIdx_cons, h]

theorem mem_observedFrom {segments : List Segment} {n k : Nat} :
    k ∈ observedFrom segments n ↔
      ∃ d segment, segments[d]? = some segment ∧ segment.isObserved = true ∧ k = d + n := by
  induction segments generalizing n with
  | nil => simp [observedFrom]
  | cons x xs ih =>
    rw [observedFrom_cons]
    constructor
    · intro h
      -- the head is listed with its own number if it was observed
      have hcases : (x.isObserved = true ∧ k = n) ∨ k ∈ observedFrom xs (n + 1) := by
        by_cases hx : x.isObserved = true
        · rw [if_pos hx] at h
          exact (List.mem_cons.mp h).imp (fun hk => ⟨hx, hk⟩) id
        · rw [if_neg hx] at h
          exact .inr h
      rcases hcases with ⟨hx, rfl⟩ | h
      · exact ⟨0, x, rfl, hx, (Nat.zero_add k).symm⟩
      · obtain ⟨d, y, hd, hy, rfl⟩ := ih.mp h
        exact ⟨d + 1, y, hd, hy, by omega⟩
    · rintro ⟨d, y, hd, hy, rfl⟩
      cases d with
      | zero =>
        obtain rfl : x = y := by simpa using hd
        rw [if_pos hy, Nat.zero_add]
        exact List.mem_cons_self
      | succ d =>
        have hmem : d + 1 + n ∈ observedFrom xs (n + 1) :=
          ih.mpr ⟨d, y, hd, hy, by omega⟩
        split
        · exact List.mem_cons_of_mem _ hmem
        · exact hmem

theorem observedFrom_increasing (segments : List Segment) (n : Nat) :
    (observedFrom segments n).Pairwise (· < ·) := by
  induction segments generalizing n with
  | nil => exact List.Pairwise.nil
  | cons x xs ih =>
    rw [observedFrom_cons]
    split
    · refine List.pairwise_cons.mpr ⟨?_, ih (n + 1)⟩
      intro k hk
      obtain ⟨d, y, -, -, rfl⟩ := mem_observedFrom.mp hk
      omega
    · exact ih (n + 1)

theorem missing_add_observedFrom (segments : List Segment) (n : Nat) :
    segments.countP (fun x => !x.isObserved) + (observedFrom segments n).length =
      segments.length := by
  induction segments generalizing n with
  | nil => rfl
  | cons x xs ih =>
    have hxs := ih (n + 1)
    rw [observedFrom_cons, List.countP_cons, List.length_cons]
    cases hx : x.isObserved with
    | false =>
      simp only [Bool.not_false, if_true, Bool.false_eq_true, if_false]
      omega
    | true =>
      simp only [Bool.not_true, Bool.false_eq_true, if_false, if_true, List.length_cons]
      omega

end Stitched

/-- Counting the elements of a list by their positions. -/
theorem countP_eq_countP_range {α : Type} (p : α → Bool) (xs : List α) :
    xs.countP p = (List.range xs.length).countP fun i => xs[i]?.any p := by
  induction xs with
  | nil => rfl
  | cons x xs ih =>
    rw [List.countP_cons, List.length_cons, List.range_succ_eq_map, List.countP_cons,
      List.countP_map, ih]
    rfl

/-! ## §5 — the stitching law -/

section Law

variable {σ : Type} [RandomSource σ] (apps : AppTable)

/-- Was day `d` observed, and synthesized without a fit? -/
def usesFallback (slots : List (Option Observation)) (s : σ) (d : Nat) : Bool :=
  match slots[d]? with
  | some (some o) =>
    match apps.functionCount o.app with
    | .ok count => (synthesizeDay o count (stateBefore apps slots s d)).1.fallback.isSome
    | .error _ => false
  | _ => false

/-- What a trace stitched from `slots` contains and reports. -/
structure Stitched.OfDays (slots : List (Option Observation)) (s : σ) (t : Stitched) : Prop where
  length : t.columns.OfLength (slots.length * minutesPerDay)
  /-- Days without an observation are zero. -/
  missing : ∀ d, slots[d]? = some none → t.columns.day d = .zeros minutesPerDay
  /-- An observed day is what `synthesizeDay` makes of it in the state left by the days before. -/
  observed : ∀ d o count, slots[d]? = some (some o) → apps.functionCount o.app = .ok count →
    t.columns.day d = (synthesizeDay o count (stateBefore apps slots s d)).1.toColumns
  increasing : t.contributingDays.Pairwise (· < ·)
  contributing : ∀ k, k ∈ t.contributingDays ↔ ∃ d o, slots[d]? = some (some o) ∧ k = d + 1
  days : t.missingDays + t.contributingDays.length = slots.length
  fallbacks : t.fitFailures = (List.range slots.length).countP (usesFallback apps slots s)

variable {apps} {slots : List (Option Observation)}

theorem columns_day_of_segment {t : Stitched} {d : Nat} {segment : Segment}
    (hlen : ∀ x ∈ t.segments, x.columns.OfLength minutesPerDay)
    (hd : t.segments[d]? = some segment) : t.columns.day d = segment.columns := by
  have hi : dayOf t.columns.invocations d = segment.columns.invocations :=
    take_drop_flatMap (fun x hx => (hlen x hx).invocations) hd
  have he : dayOf t.columns.execTimes d = segment.columns.execTimes :=
    take_drop_flatMap (fun x hx => (hlen x hx).execTimes) hd
  have hm : dayOf t.columns.memories d = segment.columns.memories :=
    take_drop_flatMap (fun x hx => (hlen x hx).memories) hd
  rw [Columns.day, hi, he, hm]

theorem columns_ofLength_of_segments {t : Stitched}
    (hlen : ∀ x ∈ t.segments, x.columns.OfLength minutesPerDay) :
    t.columns.OfLength (t.segments.length * minutesPerDay) :=
  ⟨length_flatMap_of_forall fun x hx => (hlen x hx).invocations,
    length_flatMap_of_forall fun x hx => (hlen x hx).execTimes,
    length_flatMap_of_forall fun x hx => (hlen x hx).memories⟩

theorem segmentAt_isFallback (slots : List (Option Observation)) (s : σ) (d : Nat) :
    ((segmentsFrom apps slots s)[d]?.any (·.isFallback)) = usesFallback apps slots s d := by
  rw [segmentsFrom_getElem?, usesFallback]
  cases slots[d]? with
  | none => rfl
  | some slot =>
    cases slot with
    | none => rfl
    | some o =>
      cases hc : apps.functionCount o.app with
      | error e => simp only [Option.map_some, Option.any_some, segmentAt, hc]; rfl
      | ok count => simp only [Option.map_some, Option.any_some, segmentAt, hc]; rfl

/-- The segments of stitchable slots make a trace of these days. -/
theorem Stitched.ofDays_segmentsFrom (h : ∀ o, some o ∈ slots → o.Stitchable apps) (s : σ) :
    (Stitched.mk (segmentsFrom apps slots s)).OfDays apps slots s := by
  have hlen : ∀ x ∈ segmentsFrom apps slots s, x.columns.OfLength minutesPerDay := by
    intro x hx
    obtain ⟨slot, hslot, s', rfl⟩ := exists_slot_of_mem_segmentsFrom apps hx
    exact segmentAt_ofLength apps (fun o ho => h o (ho ▸ hslot)) s'
  have hsize := segmentsFrom_length apps slots s
  -- each day is its own segment, made in the state in front of it
  have hget : ∀ {d : Nat} {slot : Option Observation}, slots[d]? = some slot →
      (segmentsFrom apps slots s)[d]? =
        some (segmentAt apps slot (stateBefore apps slots s d)) := by
    intro d slot hd
    rw [segmentsFrom_getElem?, hd, Option.map_some]
  refine ⟨?_, ?_, ?_, ?_, ?_, ?_, ?_⟩
  · rw [← hsize]
    exact columns_ofLength_of_segments hlen
  · intro d hd
    exact columns_day_of_segment hlen (hget hd)
  · intro d o count hd hc
    rw [columns_day_of_segment hlen (hget hd), segmentAt_of_functionCount apps hc]
    rfl
  · exact observedFrom_increasing _ 1
  · intro k
    refine mem_observedFrom.trans ⟨?_, ?_⟩
    · rintro ⟨d, x, hd, hx, rfl⟩
      rw [segmentsFrom_getElem?] at hd
      obtain ⟨slot, hslot, rfl⟩ := Option.map_eq_some_iff.mp hd
      rw [segmentAt_isObserved apps
        (fun o ho => h o (ho ▸ List.mem_of_getElem? hslot))] at hx
      obtain ⟨o, rfl⟩ := Option.isSome_iff_exists.mp hx
      exact ⟨d, o, hslot, rfl⟩
    · rintro ⟨d, o, hd, rfl⟩
      refine ⟨d, _, hget hd, ?_, rfl⟩
      rw [segmentAt_isObserved apps fun o' ho => h o' (ho ▸ List.mem_of_getElem? hd)]
      rfl
  · exact (missing_add_observedFrom _ 1).trans hsize
  · refine (countP_eq_countP_range _ _).trans ?_
    rw [hsize]
    exact List.countP_congr fun d _ => by rw [segmentAt_isFallback]

theorem stitch_cases (apps : AppTable) (slots : List (Option Observation)) (s : σ) :
    ((∀ o, some o ∈ slots → o.Stitchable apps) ∧
        stitch apps slots s =
          (.ok ⟨segmentsFrom apps slots s⟩, stateBefore apps slots s slots.length)) ∨
      ∃ d e, FirstRefusal apps slots d e ∧
        stitch apps slots s = (.error e, stateBefore apps slots s (d + 1)) := by
  unfold stitch
  rcases segmentsOf_cases apps slots s with ⟨hall, hsegs⟩ | ⟨d, e, hfirst, hsegs⟩
  · rw [hsegs]
    exact .inl ⟨hall, rfl⟩
  · rw [hsegs]
    exact .inr ⟨d, e, hfirst, rfl⟩

/-- All slots are stitched if none is refused. -/
theorem stitch_of_stitchable {apps : AppTable} {slots : List (Option Observation)}
    (hall : ∀ o, some o ∈ slots → o.Stitchable apps) (s : σ) :
    stitch apps slots s =
      (.ok ⟨segmentsFrom apps slots s⟩, stateBefore apps slots s slots.length) := by
  rcases stitch_cases apps slots s with ⟨-, hst⟩ | ⟨d, e, hfirst, -⟩
  · exact hst
  · exact absurd hall hfirst.not_stitchable

/-- **The stitching law.** A list of slots is stitched exactly if every observed day is stitchable.
The trace then consists of its days, each made in the state that the days before it left, and the
source ends behind the last of them.  Otherwise the error is that of the first day that is refused,
and the source ends behind this day. -/
theorem stitch_days (apps : AppTable) (slots : List (Option Observation)) (s : σ) :
    ((∃ t, (stitch apps slots s).1 = .ok t) ↔ ∀ o, some o ∈ slots → o.Stitchable apps) ∧
    (∀ t, (stitch apps slots s).1 = .ok t →
      t.OfDays apps slots s ∧ (stitch apps slots s).2 = stateBefore apps slots s slots.length) ∧
    (∀ e, (stitch apps slots s).1 = .error e →
      ∃ d, FirstRefusal apps slots d e ∧
        (stitch apps slots s).2 = stateBefore apps slots s (d + 1)) := by
  rcases stitch_cases apps slots s with ⟨hall, hsegs⟩ | ⟨d, e, hfirst, hsegs⟩
  · rw [hsegs]
    refine ⟨⟨fun _ => hall, fun _ => ⟨_, rfl⟩⟩, ?_, nofun⟩
    intro t ht
    obtain rfl := Except.ok.inj ht
    exact ⟨Stitched.ofDays_segmentsFrom hall s, rfl⟩
  · rw [hsegs]
    refine ⟨⟨nofun, fun hall => absurd hall hfirst.not_stitchable⟩, nofun, ?_⟩
    intro e' he
    obtain rfl := Except.error.inj he
    exact ⟨d, hfirst, rfl⟩

end Law

end WorkloadSynth
