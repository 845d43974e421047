import Mathlib
import WorkloadSynth.Observation.Row
import WorkloadSynth.Proofs.TableText

/-!
# What is read of a task

Rows are read up to the first faulty one (`readAll_eq_error_iff`).  A row is read if each of its
columns is, and every field of the observation has its column (`ofFields_eq_ok_iff`); a count is cut
from a whole double (`of_readCount_eq_ok`).  The plain rows of the last section are accepted rows
that can be written down.
-/

namespace WorkloadSynth

/-! ## §1 — traversals -/

theorem exists_of_bind_eq_ok {ε α β : Type} {x : Except ε α} {f : α → Except ε β} {b : β}
    (h : x >>= f = .ok b) : ∃ a, x = .ok a ∧ f a = .ok b := by
  cases x with
  | error e => cases h
  | ok a => exact ⟨a, rfl, h⟩

/-- What is done to a result does not touch a failure. -/
theorem map_eq_error_iff {ε α β : Type} {x : Except ε α} {f : α → β} {e : ε} :
    x.map f = .error e ↔ x = .error e := by
  cases x with
  | error e' =>
    show Except.error e' = Except.error e ↔ Except.error e' = Except.error e
    rw [Except.error.injEq, Except.error.injEq]
  | ok a => exact iff_of_false nofun nofun

/-- A list read in `Except` has one result for each element, in order. -/
theorem forall₂_of_mapM_eq_ok {ε α β : Type} {f : α → Except ε β} {xs : List α} {ys : List β}
    (h : xs.mapM f = .ok ys) : List.Forall₂ (fun x y => f x = .ok y) xs ys := by
  induction xs generalizing ys with
  | nil =>
    obtain rfl := Except.ok.inj h
    exact .nil
  | cons x xs ih =>
    rw [List.mapM_cons] at h
    obtain ⟨y, hx, h⟩ := exists_of_bind_eq_ok h
    obtain ⟨zs, hxs, h⟩ := exists_of_bind_eq_ok h
    obtain rfl := Except.ok.inj h
    exact .cons hx (ih hxs)

/-- **The first failure of a traversal is its failure.** -/
theorem mapM_eq_error_iff {ε α β : Type} {f : α → Except ε β} {xs : List α} {e : ε} :
    xs.mapM f = .error e ↔ ∃ before x after, xs = before ++ x :: after ∧
      (∀ y ∈ before, ∃ b, f y = .ok b) ∧ f x = .error e := by
  constructor
  · intro h
    induction xs with
    | nil => cases h
    | cons x xs ih =>
      rw [List.mapM_cons] at h
      cases hx : f x with
      | error e' =>
        rw [hx] at h
        obtain rfl := Except.error.inj h
        exact ⟨[], x, xs, rfl, fun y hy => absurd hy List.not_mem_nil, hx⟩
      | ok b =>
        have htail : xs.mapM f = .error e := by
          cases hxs : xs.mapM f with
          | error e' => rw [hx, hxs] at h; exact h
          | ok bs => rw [hx, hxs] at h; cases h
        obtain ⟨before, y, after, rfl, hbefore, hy⟩ := ih htail
        exact ⟨x :: before, y, after, rfl, List.forall_mem_cons.mpr ⟨⟨b, hx⟩, hbefore⟩, hy⟩
  · rintro ⟨before, x, after, rfl, hbefore, hx⟩
    induction before with
    | nil =>
      rw [List.nil_append, List.mapM_cons, hx]
      rfl
    | cons y before ih =>
      obtain ⟨⟨b, hy⟩, hbefore⟩ := List.forall_mem_cons.mp hbefore
      rw [List.cons_append, List.mapM_cons, hy, ih hbefore]
      rfl

theorem exists_of_mem_forall₂ {α β : Type} {R : α → β → Prop} {xs : List α} {ys : List β}
    (h : List.Forall₂ R xs ys) {y : β} (hy : y ∈ ys) : ∃ x ∈ xs, R x y := by
  induction h with
  | nil => cases hy
  | cons hx hxs ih =>
    rcases List.mem_cons.mp hy with rfl | hy
    · exact ⟨_, List.mem_cons_self, hx⟩
    · obtain ⟨x, hmem, hxy⟩ := ih hy
      exact ⟨x, List.mem_cons_of_mem _ hmem, hxy⟩

namespace Observation

/-! ## §2 — one row -/

theorem field_toArray (fields : List String) (column : Nat) :
    field fields.toArray column = fields[column]?.getD "" := by
  simp [field, Array.getD_eq_getD_getElem?]

/-- A count is a whole double that is cut to a word. -/
theorem of_readCount_eq_ok {fields : Array String} {column : Nat} {n : UInt64}
    (h : readCount fields column = .ok n) :
    ∃ x : Float, 0.0 ≤ x ∧ Double.isWhole x = true ∧ n = x.toUInt64 := by
  unfold readCount at h
  obtain ⟨x, -, h⟩ := exists_of_bind_eq_ok h
  split at h
  · rename_i hx
    exact ⟨x, hx.1, hx.2, (Except.ok.inj h).symm⟩
  · cases h

/-- The statistics of an observation in the order of their columns. -/
def statistics (o : Observation) : List Float :=
  [o.duration.average, o.duration.count, o.duration.minimum, o.duration.maximum] ++
    (o.duration.percentiles ++
      ([o.memory.sampleCount, o.memory.average] ++ o.memory.percentiles))

/-- What an observation has to do with the columns that it is read from. -/
structure IsReadFrom (trailing : TrailingColumns) (fields : Array String) (o : Observation) :
    Prop where
  width : Layout.width ≤ fields.size
  counts : List.Forall₂ (fun i n => readCount fields (Layout.counts + i) = .ok n)
    (List.range minutesPerDay) o.invocations
  statistics : List.Forall₂ (fun i x => readStat fields (Layout.duration + i) = .ok x)
    (List.range 21) o.statistics
  day : readDay fields trailing.day = .ok o.day
  owner : o.owner = field fields 0
  app : o.app = field fields 1
  function : o.function = field fields 2
  trigger : o.trigger = .ofName (field fields 3)
  id : o.id = (trailing.id.map (field fields)).getD o.function

section Fields

variable {trailing : TrailingColumns} {fields : Array String} {o : Observation}

/-- The columns of the statistics, counted from the first of them. -/
theorem range_statistics : List.range 21 =
    [0, 1, 2, 3, 4, 5, 6, 7, 8, 9, 10, 11, 12, 13, 14, 15, 16, 17, 18, 19, 20] := rfl

theorem isReadFrom_of_ok (h : ofFields trailing fields = .ok o) :
    IsReadFrom trailing fields o := by
  unfold ofFields at h
  by_cases hwidth : fields.size < Layout.width
  · rw [if_pos hwidth] at h
    cases h
  rw [if_neg hwidth] at h
  obtain ⟨invocations, hinv, h⟩ := exists_of_bind_eq_ok h
  -- percentiles are read before the day, and the other statistics behind it
  obtain ⟨d0, hd0, h⟩ := exists_of_bind_eq_ok h
  obtain ⟨d1, hd1, h⟩ := exists_of_bind_eq_ok h
  obtain ⟨d25, hd25, h⟩ := exists_of_bind_eq_ok h
  obtain ⟨d50, hd50, h⟩ := exists_of_bind_eq_ok h
  obtain ⟨d75, hd75, h⟩ := exists_of_bind_eq_ok h
  obtain ⟨d99, hd99, h⟩ := exists_of_bind_eq_ok h
  obtain ⟨d100, hd100, h⟩ := exists_of_bind_eq_ok h
  obtain ⟨m1, hm1, h⟩ := exists_of_bind_eq_ok h
  obtain ⟨m5, hm5, h⟩ := exists_of_bind_eq_ok h
  obtain ⟨m25, hm25, h⟩ := exists_of_bind_eq_ok h
  obtain ⟨m50, hm50, h⟩ := exists_of_bind_eq_ok h
  obtain ⟨m75, hm75, h⟩ := exists_of_bind_eq_ok h
  obtain ⟨m95, hm95, h⟩ := exists_of_bind_eq_ok h
  obtain ⟨m99, hm99, h⟩ := exists_of_bind_eq_ok h
  obtain ⟨m100, hm100, h⟩ := exists_of_bind_eq_ok h
  obtain ⟨day, hday, h⟩ := exists_of_bind_eq_ok h
  obtain ⟨dAverage, hdAverage, h⟩ := exists_of_bind_eq_ok h
  obtain ⟨dCount, hdCount, h⟩ := exists_of_bind_eq_ok h
  obtain ⟨dMinimum, hdMinimum, h⟩ := exists_of_bind_eq_ok h
  obtain ⟨dMaximum, hdMaximum, h⟩ := exists_of_bind_eq_ok h
  obtain ⟨mCount, hmCount, h⟩ := exists_of_bind_eq_ok h
  obtain ⟨mAverage, hmAverage, h⟩ := exists_of_bind_eq_ok h
  obtain rfl := Except.ok.inj h
  have hstatistics : List.Forall₂ (fun i x => readStat fields (Layout.duration + i) = .ok x)
      (List.range 21) [dAverage, dCount, dMinimum, dMaximum, d0, d1, d25, d50, d75, d99, d100,
        mCount, mAverage, m1, m5, m25, m50, m75, m95, m99, m100] := by
    simp only [range_statistics, List.forall₂_cons, List.forall₂_nil_right_iff]
    exact ⟨hdAverage, hdCount, hdMinimum, hdMaximum, hd0, hd1, hd25, hd50, hd75, hd99, hd100,
      hmCount, hmAverage, hm1, hm5, hm25, hm50, hm75, hm95, hm99, hm100, trivial⟩
  exact ⟨Nat.le_of_not_lt hwidth, forall₂_of_mapM_eq_ok hinv, hstatistics, hday, rfl, rfl, rfl, rfl,
    rfl⟩

theorem IsReadFrom.ok (h : IsReadFrom trailing fields o) : ofFields trailing fields = .ok o := by
  have hstatistics := h.statistics
  simp only [range_statistics, Observation.statistics, DurationStats.percentiles,
    MemoryStats.percentiles, List.cons_append, List.nil_append, List.forall₂_cons,
    Nat.add_zero] at hstatistics
  have hmemory : Layout.memory = Layout.duration + 11 := rfl
  have hid := h.id
  rw [h.function] at hid
  unfold ofFields
  rw [if_neg (Nat.not_lt.mpr h.width), Csv.mapM_eq_ok h.counts]
  simp only [hmemory, Nat.add_assoc, Nat.reduceAdd, hstatistics, h.day, bind, Except.bind, pure,
    Except.pure]
  rw [← h.owner, ← h.app, ← hid, ← h.trigger, ← h.function]

/-- **What an observation is read from.** -/
theorem ofFields_eq_ok_iff : ofFields trailing fields = .ok o ↔ IsReadFrom trailing fields o :=
  ⟨isReadFrom_of_ok, IsReadFrom.ok⟩

/-- What is read of a row without a look at its statistics. -/
theorem of_ofFields_eq_ok (h : ofFields trailing fields = .ok o) :
    o.trigger = .ofName (field fields 3) ∧
      List.Forall₂ (fun i n => readCount fields (Layout.counts + i) = .ok n)
        (List.range minutesPerDay) o.invocations ∧
      o.id = (trailing.id.map (field fields)).getD o.function := by
  have hread := ofFields_eq_ok_iff.mp h
  exact ⟨hread.trigger, hread.counts, hread.id⟩

end Fields

theorem ofRow_eq_ok_iff {line : Nat} {trailing : TrailingColumns} {fields : List String}
    {o : Observation} :
    ofRow line trailing fields = .ok o ↔ ofFields trailing fields.toArray = .ok o := by
  unfold ofRow
  cases ofFields trailing fields.toArray with
  | error fault => exact ⟨nofun, nofun⟩
  | ok o' => simp

/-- A row is read with a count for every minute. -/
theorem invocations_length_of_ofRow {line : Nat} {trailing : TrailingColumns}
    {fields : List String} {o : Observation} (h : ofRow line trailing fields = .ok o) :
    o.invocations.length = minutesPerDay := by
  obtain ⟨-, hcounts, -⟩ := of_ofFields_eq_ok (ofRow_eq_ok_iff.mp h)
  exact hcounts.length_eq.symm.trans List.length_range

/-! ## §3 — all rows -/

/-- Reads one row of a table. -/
def ofRecord (table : Csv.Table) (names : List String) (r : Csv.Record) :
    Except Error Observation :=
  match table.rowTexts r with
  | .error e => .error (.csv e)
  | .ok fields => ofRow r.position.line (.ofHeader names) fields

/-- What keeps a file of statistics from being read. -/
inductive Faulty (bytes : Bytes) : Error → Prop where
  /-- The header is not a text. -/
  | header {e : Csv.Error} (h : (Csv.Table.ofBytes bytes).header.texts = .error e) :
      Faulty bytes (.csv e)
  /-- The first row that cannot be read, behind rows that can. -/
  | row {names : List String} (hnames : (Csv.Table.ofBytes bytes).header.texts = .ok names)
      {before after : List Csv.Record} {r : Csv.Record} {e : Error}
      (hrows : (Csv.Table.ofBytes bytes).rows = before ++ r :: after)
      (hbefore : ∀ r' ∈ before, ∃ o, ofRecord (Csv.Table.ofBytes bytes) names r' = .ok o)
      (h : ofRecord (Csv.Table.ofBytes bytes) names r = .error e) : Faulty bytes e

variable {bytes : Bytes} {observations : List Observation}

theorem readAll_of_header_eq_error {e : Csv.Error}
    (h : (Csv.Table.ofBytes bytes).header.texts = .error e) : readAll bytes = .error (.csv e) := by
  simp only [readAll, h]

theorem readAll_of_header_eq_ok {names : List String}
    (h : (Csv.Table.ofBytes bytes).header.texts = .ok names) :
    readAll bytes =
      (Csv.Table.ofBytes bytes).rows.mapM (ofRecord (Csv.Table.ofBytes bytes) names) := by
  simp only [readAll, h]
  rfl

/-- **Files are read up to the first fault.** -/
theorem readAll_eq_error_iff {e : Error} : readAll bytes = .error e ↔ Faulty bytes e := by
  cases hnames : (Csv.Table.ofBytes bytes).header.texts with
  | error e' =>
    rw [readAll_of_header_eq_error hnames]
    constructor
    · intro h
      rw [← Except.error.inj h]
      exact .header hnames
    · rintro (h | ⟨h, -, -, -⟩)
      · rw [hnames] at h
        rw [Except.error.inj h]
      · rw [hnames] at h
        cases h
  | ok names =>
    rw [readAll_of_header_eq_ok hnames, mapM_eq_error_iff]
    constructor
    · rintro ⟨before, r, after, hrows, hbefore, h⟩
      exact .row hnames hrows hbefore h
    · rintro (h | ⟨h, hrows, hbefore, hbad⟩)
      · rw [hnames] at h
        cases h
      · rw [hnames] at h
        obtain rfl := Except.ok.inj h
        exact ⟨_, _, _, hrows, hbefore, hbad⟩

/-- Every observation is read of a row behind the header. -/
theorem exists_row_of_readAll (h : readAll bytes = .ok observations) :
    ∃ names, (Csv.Table.ofBytes bytes).header.texts = .ok names ∧
      ∀ o ∈ observations, ∃ line fields, ofRow line (.ofHeader names) fields = .ok o := by
  cases hnames : (Csv.Table.ofBytes bytes).header.texts with
  | error e =>
    rw [readAll_of_header_eq_error hnames] at h
    cases h
  | ok names =>
    refine ⟨names, rfl, ?_⟩
    intro o ho
    rw [readAll_of_header_eq_ok hnames] at h
    obtain ⟨record, -, hrow⟩ := exists_of_mem_forall₂ (forall₂_of_mapM_eq_ok h) ho
    unfold ofRecord at hrow
    split at hrow
    · cases hrow
    · exact ⟨_, _, hrow⟩

theorem invocations_length_of_readAll (h : readAll bytes = .ok observations) {o : Observation}
    (ho : o ∈ observations) : o.invocations.length = minutesPerDay := by
  obtain ⟨names, -, hrows⟩ := exists_row_of_readAll h
  obtain ⟨line, fields, hrow⟩ := hrows o ho
  exact invocations_length_of_ofRow hrow

/-- There is no column for the ids of traces. -/
def NoIdColumn (bytes : Bytes) : Prop :=
  ∀ names, (Csv.Table.ofBytes bytes).header.texts = .ok names →
    (TrailingColumns.ofHeader names).id = none

/-- Without such a column a trace is identified by its function. -/
theorem id_of_noIdColumn (h : readAll bytes = .ok observations) (hid : NoIdColumn bytes)
    {o : Observation} (ho : o ∈ observations) : o.id = o.function := by
  obtain ⟨names, hnames, hrows⟩ := exists_row_of_readAll h
  obtain ⟨line, fields, hrow⟩ := hrows o ho
  obtain ⟨-, -, hfield⟩ := of_ofFields_eq_ok (ofRow_eq_ok_iff.mp hrow)
  rw [hid names hnames] at hfield
  exact hfield

/-- A written file is read row by row. -/
theorem readAll_write {β : Type} {names : List String} {items : List β} {fields : β → List String}
    {value : β → Observation} (h : Csv.Writable (names :: items.map fields))
    (hlength : ∀ x ∈ items, (fields x).length = names.length)
    (hvalue : ∀ x ∈ items, ofFields (.ofHeader names) (fields x).toArray = .ok (value x)) :
    readAll (Csv.write (names :: items.map fields)) = .ok (items.map value) := by
  obtain ⟨table, htable, hheader, hlines⟩ := Csv.exists_rowTexts_write h hlength
  rw [← htable] at hheader hlines
  rw [readAll_of_header_eq_ok hheader]
  apply Csv.mapM_eq_ok
  rw [List.forall₂_map_right_iff]
  refine hlines.imp ?_
  rintro line x ⟨hx, htexts⟩
  unfold ofRecord
  rw [htexts]
  exact ofRow_eq_ok_iff.mpr (hvalue x hx)

end Observation

/-! ## §4 — plain rows -/

/-- The fields of a timer that has the same count in every minute and no statistics, with more
fields behind the fixed layout. -/
def plainFields (app function count : String) (more : List String) : List String :=
  ["o", app, function, "timer"] ++
    (List.replicate minutesPerDay count ++ (List.replicate 21 "" ++ more))

/-- The names of the columns of plain rows. -/
def plainNames (more : List String) : List String := List.replicate Layout.width "x" ++ more

/-- What is read of a plain row. -/
def plainObservation (app function : String) (count : UInt64) (day : Nat) (id : String) :
    Observation where
  owner := "o"
  app
  function
  trigger := .timer
  invocations := List.replicate minutesPerDay count
  duration :=
    let nan := 0.0 / 0.0
    ⟨nan, nan, nan, nan, nan, nan, nan, nan, nan, nan, nan⟩
  memory :=
    let nan := 0.0 / 0.0
    ⟨nan, nan, nan, nan, nan, nan, nan, nan, nan, nan⟩
  day
  id

namespace Observation

/-- How a column is read depends on its text alone. -/
theorem readCount_of_text {fields : Array String} {column : Nat} {text : String} {l : Literal}
    {n : UInt64} (h : field fields column = text) (hne : (trim text.toList).isEmpty = false)
    (hread : Literal.read (trim text.toList) = .ok l)
    (hwhole : 0.0 ≤ l.toFloat ∧ Double.isWhole l.toFloat = true) (hn : l.toFloat.toUInt64 = n) :
    readCount fields column = .ok n := by
  have hstat : readStat fields column = .ok l.toFloat := by
    unfold readStat
    rw [h]
    dsimp only
    rw [hne, hread]
    rfl
  unfold readCount
  rw [hstat, ← hn]
  exact if_pos hwhole

theorem readCount_zero {fields : Array String} {column : Nat} (h : field fields column = "0") :
    readCount fields column = .ok 0 := by
  have htrim : trim "0".toList = ['0'] := by decide +kernel
  have hread : Literal.read (trim "0".toList) = .ok (.finite false ⟨0, 0⟩) := by
    rw [htrim]
    rfl
  exact readCount_of_text h (by rw [htrim]; rfl) hread (by decide +kernel) (by decide +kernel)

theorem readStat_of_blank {fields : Array String} {column : Nat} (h : field fields column = "") :
    readStat fields column = .ok (0.0 / 0.0) := by
  unfold readStat
  rw [h]
  rfl

/-- A row with the same number in place of every statistic. -/
theorem ofFields_of_stats {trailing : TrailingColumns} {fields : Array String}
    {counts : List UInt64} {x : Float} {day : Nat} (hwidth : ¬ fields.size < Layout.width)
    (hcounts : ((List.range minutesPerDay).mapM fun i => readCount fields (Layout.counts + i)) =
      .ok counts)
    (hstats : ∀ i < 21, readStat fields (Layout.duration + i) = .ok x)
    (hday : readDay fields trailing.day = .ok day) :
    ofFields trailing fields = .ok {
      owner := field fields 0
      app := field fields 1
      function := field fields 2
      trigger := .ofName (field fields 3)
      invocations := counts
      duration := ⟨x, x, x, x, x, x, x, x, x, x, x⟩
      memory := ⟨x, x, x, x, x, x, x, x, x, x⟩
      day
      id := (trailing.id.map (field fields)).getD (field fields 2) } := by
  refine IsReadFrom.ok ⟨Nat.le_of_not_lt hwidth, forall₂_of_mapM_eq_ok hcounts, ?_, hday, rfl, rfl,
    rfl, rfl, rfl⟩
  show List.Forall₂ _ (List.range 21) ((List.range 21).map fun _ => x)
  rw [List.forall₂_map_right_iff, List.forall₂_same]
  exact fun i hi => hstats i (List.mem_range.mp hi)

section Plain

variable (app function count : String) (more : List String)

theorem plainFields_length :
    (plainFields app function count more).length = Layout.width + more.length := by
  simp only [plainFields, List.length_append, List.length_replicate, List.length_cons,
    List.length_nil, Layout.width, Layout.memory, Layout.duration, Layout.counts]
  omega

theorem field_plainFields_count {i : Nat} (hi : i < minutesPerDay) :
    field (plainFields app function count more).toArray (Layout.counts + i) = count := by
  have hget : (plainFields app function count more)[Layout.counts + i]? = some count := by
    unfold plainFields
    rw [List.getElem?_append_right
        (show ["o", app, function, "timer"].length ≤ Layout.counts + i from Nat.le_add_right _ _),
      show Layout.counts + i - ["o", app, function, "timer"].length = i from
        Nat.add_sub_cancel_left ..,
      List.getElem?_append_left (by rw [List.length_replicate]; exact hi),
      List.getElem?_replicate_of_lt hi]
  rw [field_toArray, hget]
  rfl

/-- The fields behind the counts. -/
theorem getElem?_plainFields (i : Nat) :
    (plainFields app function count more)[Layout.duration + i]? =
      (List.replicate 21 "" ++ more)[i]? := by
  have hlen : (["o", app, function, "timer"] ++ List.replicate minutesPerDay count).length =
      Layout.duration := by
    rw [List.length_append, List.length_replicate]
    rfl
  unfold plainFields
  rw [← List.append_assoc, List.getElem?_append_right (by omega), hlen, Nat.add_sub_cancel_left]

theorem field_plainFields_stat {i : Nat} (hi : i < 21) :
    field (plainFields app function count more).toArray (Layout.duration + i) = "" := by
  rw [field_toArray, getElem?_plainFields,
    List.getElem?_append_left (by rw [List.length_replicate]; exact hi),
    List.getElem?_replicate_of_lt hi]
  rfl

theorem field_plainFields_more (i : Nat) :
    field (plainFields app function count more).toArray (Layout.width + i) =
      more[i]?.getD "" := by
  rw [field_toArray, show Layout.width + i = Layout.duration + (21 + i) from Nat.add_assoc _ 21 i,
    getElem?_plainFields, List.getElem?_append_right (by rw [List.length_replicate]; omega),
    List.length_replicate, Nat.add_sub_cancel_left]

variable {count}

/-- **Plain rows are accepted.** -/
theorem ofFields_plainFields {trailing : TrailingColumns} {n : UInt64} {day : Nat}
    (hcount : ∀ (fields : Array String) (column : Nat), field fields column = count →
      readCount fields column = .ok n)
    (hday : readDay (plainFields app function count more).toArray trailing.day = .ok day) :
    ofFields trailing (plainFields app function count more).toArray =
      .ok (plainObservation app function n day
        ((trailing.id.map (field (plainFields app function count more).toArray)).getD
          function)) := by
  have hwidth : ¬ (plainFields app function count more).toArray.size < Layout.width := by
    rw [List.size_toArray, plainFields_length]
    omega
  have hcounts : ((List.range minutesPerDay).mapM fun i =>
      readCount (plainFields app function count more).toArray (Layout.counts + i)) =
        .ok (List.replicate minutesPerDay n) := by
    have hmap : List.replicate minutesPerDay n = (List.range minutesPerDay).map fun _ => n := by
      rw [List.map_const', List.length_range]
    rw [hmap]
    apply Csv.mapM_eq_ok
    rw [List.forall₂_map_right_iff, List.forall₂_same]
    intro i hi
    exact hcount _ _ (field_plainFields_count app function count more (List.mem_range.mp hi))
  have hstats : ∀ i < 21, readStat (plainFields app function count more).toArray
      (Layout.duration + i) = .ok (0.0 / 0.0) := fun i hi =>
    readStat_of_blank (field_plainFields_stat app function count more hi)
  have hnames : ∀ i, field (plainFields app function count more).toArray i =
      (plainFields app function count more)[i]?.getD "" := field_toArray _
  have howner : (plainFields app function count more)[0]?.getD "" = "o" := rfl
  have happ : (plainFields app function count more)[1]?.getD "" = app := rfl
  have hfunction : (plainFields app function count more)[2]?.getD "" = function := rfl
  have htrigger : (plainFields app function count more)[3]?.getD "" = "timer" := rfl
  have hfields := ofFields_of_stats hwidth hcounts hstats hday
  rw [hnames 0, hnames 1, hnames 2, hnames 3, howner, happ, hfunction, htrigger] at hfields
  exact hfields

theorem plainNames_length : (plainNames more).length = Layout.width + more.length := by
  rw [plainNames, List.length_append, List.length_replicate]

theorem trailingColumn_plainNames (name : String) :
    trailingColumn (plainNames more) name =
      (more.findIdx? (· = name)).map (· + Layout.width) := by
  rw [trailingColumn, plainNames, List.drop_left' List.length_replicate]

theorem ofHeader_plainNames :
    TrailingColumns.ofHeader (plainNames more) =
      ⟨(more.findIdx? (· = "Day")).map (· + Layout.width),
        (more.findIdx? (· = "id")).map (· + Layout.width)⟩ := by
  rw [TrailingColumns.ofHeader, trailingColumn_plainNames, trailingColumn_plainNames]

/-- **Files of plain rows are read.** -/
theorem readAll_plain {β : Type} {items : List β} {fields : β → List String}
    {value : β → Observation}
    (hlength : ∀ x ∈ items, (fields x).length = Layout.width + more.length)
    (hvalue : ∀ x ∈ items,
      ofFields (.ofHeader (plainNames more)) (fields x).toArray = .ok (value x)) :
    readAll (Csv.write (plainNames more :: items.map fields)) = .ok (items.map value) := by
  have hwritable : Csv.Writable (plainNames more :: items.map fields) := by
    apply Csv.writable_of_width (Layout.width + more.length)
    · exact Nat.le_add_right_of_le (by decide)
    · intro row hrow
      rcases List.mem_cons.mp hrow with rfl | hrow
      · exact plainNames_length more
      · obtain ⟨x, hx, rfl⟩ := List.mem_map.mp hrow
        exact hlength x hx
    · exact nofun
  refine readAll_write hwritable ?_ hvalue
  intro x hx
  rw [hlength x hx, plainNames_length]

end Plain

/-- A task without columns for days and ids, by the applications and functions of its rows. -/
def plainTask (rows : List (String × String)) : Bytes :=
  Csv.write (plainNames [] :: rows.map fun row => plainFields row.1 row.2 "0" [])

/-- What is read of such a task: first days of timers, with functions in place of ids. -/
def plainObservations (rows : List (String × String)) : List Observation :=
  rows.map fun row => plainObservation row.1 row.2 0 1 row.2

theorem readAll_plainTask (rows : List (String × String)) :
    readAll (plainTask rows) = .ok (plainObservations rows) := by
  have htrailing : TrailingColumns.ofHeader (plainNames []) = ⟨none, none⟩ :=
    ofHeader_plainNames []
  apply readAll_plain
  · intro row _
    exact plainFields_length ..
  · intro row _
    rw [htrailing]
    exact ofFields_plainFields row.1 row.2 [] (fun _ _ h => readCount_zero h) rfl

end Observation

end WorkloadSynth
