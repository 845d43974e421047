import WorkloadSynth.Proofs.Stitch

/-!
# Stitching into buffers

A trace can be filled in instead of being put together.  Its columns start as zeros, and the days
are gone through once: the values of an observed day are copied over the part of each column that
belongs to the day, if there are as many of them as the part has room for, and the counters of the
trace go up on the way.  What is filled in so far is the trace of the days so far, with zeros behind
(`Sheet.upTo`), so in the end both ways give the same trace, or the same error, from the same words
(`fillDays_eq`).
-/

namespace WorkloadSynth

/-! ## §1 — copying over a part -/

/-- Copies values over the part of a buffer that starts at an offset. -/
def overwrite {α : Type} (buffer : List α) (offset : Nat) (values : List α) : List α :=
  buffer.take offset ++ values ++ buffer.drop (offset + values.length)

/-- Copies a column of a day over its part of a buffer, if the part has room for as many values. -/
def copyDay (id : String) (column : ColumnName) (buffer : List Float) (day : Nat)
    (values : List Float) : Except Error (List Float) := do
  checkColumn id (dayOf buffer day).length column values
  return overwrite buffer (day * minutesPerDay) values

section Copy

variable {α : Type}

/-- Only the part changes. -/
theorem overwrite_append {before part values : List α} (h : part.length = values.length)
    (after : List α) :
    overwrite (before ++ part ++ after) before.length values = before ++ values ++ after := by
  unfold overwrite
  rw [List.append_assoc before, List.take_left, ← h, ← List.length_append, ← List.append_assoc,
    List.drop_left]

/-- **One column of a day.** Copying passes the same check as the column of a segment, and then the
segment has taken the place of the one that was there. -/
theorem copyDay_flatMap {f : Segment → List Float} {before after : List Segment} {x : Segment}
    (h : ∀ y ∈ before ++ x :: after, (f y).length = minutesPerDay) (id : String)
    (column : ColumnName) (y : Segment) :
    copyDay id column ((before ++ x :: after).flatMap f) before.length (f y) =
      (checkColumn id minutesPerDay column (f y)).map fun _ =>
        (before ++ y :: after).flatMap f := by
  have hx : (f x).length = minutesPerDay := h x (by simp)
  have hpart : dayOf ((before ++ x :: after).flatMap f) before.length = f x :=
    take_drop_flatMap h (by simp)
  have hoffset : before.length * minutesPerDay = (before.flatMap f).length :=
    (length_flatMap_of_forall fun z hz => h z (List.mem_append_left _ hz)).symm
  unfold copyDay checkColumn
  rw [hpart, hx]
  by_cases hlen : (f y).length = minutesPerDay
  · simp only [if_pos hlen, List.flatMap_append, List.flatMap_cons, ← List.append_assoc, hoffset]
    exact congrArg Except.ok (overwrite_append (hx.trans hlen.symm) _)
  · rw [if_neg hlen]
    rfl

end Copy

/-! ## §2 — filling in a trace -/

/-- A trace that is being filled in, and what was counted on the way. -/
structure Sheet where
  columns : Columns
  contributingDays : List Nat
  fitFailures : Nat
  missingDays : Nat

/-- A finished trace as it is filled in. -/
def Stitched.sheet (t : Stitched) : Sheet :=
  ⟨t.columns, t.contributingDays, t.fitFailures, t.missingDays⟩

namespace Sheet

/-- A trace of zeros. -/
def blank (days : Nat) : Sheet := ⟨.zeros (days * minutesPerDay), [], 0, 0⟩

/-- Copies the columns of an observed day and counts it. -/
def copy (sheet : Sheet) (id : String) (day : Nat) (c : DayColumns) : Except Error Sheet := do
  let invocations ← copyDay id .invocations sheet.columns.invocations day c.invocations
  let execTimes ← copyDay id .execTimes sheet.columns.execTimes day c.execTimes
  let memories ← copyDay id .memories sheet.columns.memories day c.memories
  return {
    columns := ⟨invocations, execTimes, memories⟩
    contributingDays := sheet.contributingDays ++ [day + 1]
    fitFailures := if c.fallback.isSome then sheet.fitFailures + 1 else sheet.fitFailures
    missingDays := sheet.missingDays }

variable {σ : Type} [RandomSource σ] (apps : AppTable)

/-- Fills in one day.  A day without an observation is counted, and its part stays as it is. -/
def fillDay (slot : Option Observation) (day : Nat) (sheet : Sheet) (s : σ) :
    Except Error Sheet × σ :=
  match slot with
  | none => (.ok { sheet with missingDays := sheet.missingDays + 1 }, s)
  | some o =>
    match apps.functionCount o.app with
    | .error e => (.error e, s)
    | .ok count => (sheet.copy o.id day (synthesizeDay o count s).1, (synthesizeDay o count s).2)

/-- Fills in days one after the other, from `day` up to the first that fails. -/
def fillFrom : Nat → List (Option Observation) → Sheet → σ → Except Error Sheet × σ
  | _, [], sheet, s => (.ok sheet, s)
  | day, slot :: slots, sheet, s =>
    match sheet.fillDay apps slot day s with
    | (.error e, s) => (.error e, s)
    | (.ok sheet, s) => fillFrom (day + 1) slots sheet s

end Sheet

/-- Fills in the days of one function. -/
def fillDays {σ : Type} [RandomSource σ] (apps : AppTable) (slots : List (Option Observation))
    (s : σ) : Except Error Sheet × σ :=
  Sheet.fillFrom apps 0 slots (.blank slots.length) s

/-! ## §3 — what is filled in so far -/

namespace Stitched

variable {segments : List Segment} {x : Segment}

theorem contributingDays_append_singleton :
    (Stitched.mk (segments ++ [x])).contributingDays =
      (Stitched.mk segments).contributingDays ++
        if x.isObserved then [segments.length + 1] else [] := by
  unfold contributingDays
  rw [List.zipIdx_append, List.filterMap_append, Nat.add_comm 1]
  cases hx : x.isObserved <;> simp [hx]

theorem fitFailures_append_singleton :
    (Stitched.mk (segments ++ [x])).fitFailures =
      if x.isFallback then (Stitched.mk segments).fitFailures + 1
      else (Stitched.mk segments).fitFailures := by
  unfold fitFailures
  rw [List.countP_append, List.countP_singleton]
  split <;> rfl

theorem missingDays_append_singleton :
    (Stitched.mk (segments ++ [x])).missingDays =
      if x.isObserved then (Stitched.mk segments).missingDays
      else (Stitched.mk segments).missingDays + 1 := by
  unfold missingDays
  rw [List.countP_append, List.countP_singleton]
  cases x.isObserved <;> rfl

end Stitched

namespace Sheet

/-- **The invariant.** These days are filled in and counted, and there are zeros for those that are
left. -/
def upTo (segments : List Segment) (left : Nat) : Sheet :=
  { (Stitched.mk segments).sheet with
    columns := (Stitched.mk (segments ++ List.replicate left .missing)).columns }

theorem upTo_zero (segments : List Segment) : upTo segments 0 = (Stitched.mk segments).sheet := by
  unfold upTo
  rw [List.replicate_zero, List.append_nil]
  rfl

theorem flatMap_missing (f : Segment → List Float)
    (h : f .missing = List.replicate minutesPerDay 0.0) (days : Nat) :
    (List.replicate days Segment.missing).flatMap f =
      List.replicate (days * minutesPerDay) 0.0 := by
  rw [List.flatMap_replicate, h, List.flatten_replicate_replicate]

/-- Nothing is filled in yet. -/
theorem upTo_nil (days : Nat) : upTo [] days = blank days := by
  have hcolumns : (Stitched.mk (List.replicate days .missing)).columns =
      .zeros (days * minutesPerDay) := by
    unfold Stitched.columns Columns.zeros
    rw [flatMap_missing _ rfl, flatMap_missing _ rfl, flatMap_missing _ rfl]
  unfold upTo
  rw [List.nil_append, hcolumns]
  rfl

section Fill

variable {σ : Type} [RandomSource σ] {apps : AppTable} {segments : List Segment}

theorem copyDay_upTo {f : Segment → List Float} {left : Nat}
    (h : ∀ x ∈ segments ++ List.replicate (left + 1) Segment.missing,
      (f x).length = minutesPerDay)
    (id : String) (column : ColumnName) (x : Segment) :
    copyDay id column ((segments ++ List.replicate (left + 1) Segment.missing).flatMap f)
        segments.length (f x) =
      (checkColumn id minutesPerDay column (f x)).map fun _ =>
        (segments ++ [x] ++ List.replicate left Segment.missing).flatMap f := by
  rw [List.append_assoc]
  exact copyDay_flatMap h id column x

/-- Copying an observed day passes the check of its segment, and then the segment is filled in. -/
theorem copy_upTo (hlen : ∀ x ∈ segments, x.columns.OfLength minutesPerDay) (left : Nat)
    (id : String) (c : DayColumns) :
    (upTo segments (left + 1)).copy id segments.length c =
      (c.check id).map fun _ => upTo (segments ++ [.observed c]) left := by
  have hall : ∀ x ∈ segments ++ List.replicate (left + 1) Segment.missing,
      x.columns.OfLength minutesPerDay := by
    intro x hx
    rcases List.mem_append.mp hx with hx | hx
    · exact hlen x hx
    · rw [List.eq_of_mem_replicate hx]
      exact Columns.zeros_ofLength minutesPerDay
  let filled := (upTo (segments ++ [.observed c]) left).columns
  have hinvocations : copyDay id .invocations (upTo segments (left + 1)).columns.invocations
      segments.length c.invocations =
        (checkColumn id minutesPerDay .invocations c.invocations).map fun _ => filled.invocations :=
    copyDay_upTo (fun x hx => (hall x hx).invocations) id .invocations (.observed c)
  have hexecTimes : copyDay id .execTimes (upTo segments (left + 1)).columns.execTimes
      segments.length c.execTimes =
        (checkColumn id minutesPerDay .execTimes c.execTimes).map fun _ => filled.execTimes :=
    copyDay_upTo (fun x hx => (hall x hx).execTimes) id .execTimes (.observed c)
  have hmemories : copyDay id .memories (upTo segments (left + 1)).columns.memories
      segments.length c.memories =
        (checkColumn id minutesPerDay .memories c.memories).map fun _ => filled.memories :=
    copyDay_upTo (fun x hx => (hall x hx).memories) id .memories (.observed c)
  have hcounters : upTo (segments ++ [.observed c]) left =
      { columns := (upTo (segments ++ [.observed c]) left).columns
        contributingDays := (upTo segments (left + 1)).contributingDays ++ [segments.length + 1]
        fitFailures :=
          if c.fallback.isSome then (upTo segments (left + 1)).fitFailures + 1
          else (upTo segments (left + 1)).fitFailures
        missingDays := (upTo segments (left + 1)).missingDays } := by
    unfold upTo Stitched.sheet
    rw [Stitched.contributingDays_append_singleton, Stitched.fitFailures_append_singleton,
      Stitched.missingDays_append_singleton]
    rfl
  rw [hcounters]
  unfold copy DayColumns.check
  rw [hinvocations, hexecTimes, hmemories]
  -- both ways stop at the first column that has no room
  cases checkColumn id minutesPerDay .invocations c.invocations with
  | error e => rfl
  | ok _ =>
    cases checkColumn id minutesPerDay .execTimes c.execTimes with
    | error e => rfl
    | ok _ => cases checkColumn id minutesPerDay .memories c.memories <;> rfl

/-- **The step lemma.** Filling in a day is finding its segment. -/
theorem fillDay_upTo (hlen : ∀ x ∈ segments, x.columns.OfLength minutesPerDay) (left : Nat)
    (slot : Option Observation) (s : σ) :
    (upTo segments (left + 1)).fillDay apps slot segments.length s =
      ((segmentOf apps slot s).1.map fun x => upTo (segments ++ [x]) left,
        (segmentOf apps slot s).2) := by
  cases slot with
  | none =>
    have hmissing : upTo (segments ++ [.missing]) left =
        { upTo segments (left + 1) with
          missingDays := (upTo segments (left + 1)).missingDays + 1 } := by
      unfold upTo Stitched.sheet
      rw [Stitched.contributingDays_append_singleton, Stitched.fitFailures_append_singleton,
        Stitched.missingDays_append_singleton, List.append_assoc]
      simp [Segment.isObserved, Segment.isFallback, List.replicate_succ]
    simp only [fillDay, segmentOf, Except.map, hmissing]
  | some o =>
    cases hcount : apps.functionCount o.app with
    | error e => simp only [fillDay, segmentOf, hcount, Except.map]
    | ok count =>
      simp only [fillDay, segmentOf, hcount, copy_upTo hlen]
      cases (synthesizeDay o count s).1.check o.id <;> rfl

/-- **The run lemma.** -/
theorem fillFrom_upTo (hlen : ∀ x ∈ segments, x.columns.OfLength minutesPerDay)
    (slots : List (Option Observation)) (s : σ) :
    fillFrom apps segments.length slots (upTo segments slots.length) s =
      ((segmentsOf apps slots s).1.map fun more => (Stitched.mk (segments ++ more)).sheet,
        (segmentsOf apps slots s).2) := by
  induction slots generalizing segments s with
  | nil =>
    rw [List.length_nil, upTo_zero]
    simp [fillFrom, segmentsOf, Except.map]
  | cons slot slots ih =>
    rw [List.length_cons, fillFrom, fillDay_upTo hlen, segmentsOf]
    rcases segmentOf_cases apps slot s with ⟨hslot, hseg⟩ | ⟨o, e, rfl, -, hseg⟩
    · have hlen' : ∀ x ∈ segments ++ [segmentAt apps slot s],
          x.columns.OfLength minutesPerDay := by
        intro x hx
        rcases List.mem_append.mp hx with hx | hx
        · exact hlen x hx
        · rw [List.mem_singleton.mp hx]
          exact segmentAt_ofLength apps hslot s
      have hrest := ih hlen' (stateBehind apps slot s)
      rw [List.length_append, List.length_singleton] at hrest
      rw [hseg]
      refine hrest.trans ?_
      dsimp only
      -- what comes behind the segment is the same on both sides
      obtain ⟨result, behind⟩ := segmentsOf apps slots (stateBehind apps slot s)
      cases result with
      | error e => rfl
      | ok more => simp only [Except.map, List.append_assoc, List.singleton_append]
    · rw [hseg]
      rfl

end Fill

end Sheet

/-- **Filling in and putting together are the same.** -/
theorem fillDays_eq {σ : Type} [RandomSource σ] (apps : AppTable)
    (slots : List (Option Observation)) (s : σ) :
    fillDays apps slots s = ((stitch apps slots s).1.map Stitched.sheet, (stitch apps slots s).2) := by
  have hnone : ∀ x ∈ ([] : List Segment), x.columns.OfLength minutesPerDay :=
    fun x hx => absurd hx List.not_mem_nil
  unfold fillDays stitch
  rw [← Sheet.upTo_nil]
  refine (Sheet.fillFrom_upTo hnone slots s).trans ?_
  dsimp only
  cases (segmentsOf apps slots s).1 <;> rfl

end WorkloadSynth
