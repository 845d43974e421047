/-!
# Shard reports

Counters of what became of the trace units of a shard.  Reports of several shards are added field
by field.

The counters are numbers, so that no sum has to be guarded.  A program that counts in words reports
the same as long as every counter of the final sum fits into a word (`Report.Fits`): counters only
grow, so no earlier sum has wrapped around then.
-/

namespace WorkloadSynth

/-- What became of the trace units of a shard. -/
structure Report where
  /-- Units looked at. -/
  functions : Nat
  /-- Traces written. -/
  written : Nat
  /-- Days whose fit failed, in traces that fit the grid. -/
  fitFailures : Nat
  /-- Units passed over because a column did not fit the grid. -/
  schemaMismatches : Nat
  /-- Days of written traces without an observation. -/
  missingDays : Nat
deriving DecidableEq, Repr

namespace Report

/-- The report before the first unit. -/
def empty : Report := ⟨0, 0, 0, 0, 0⟩

/-- Units for which no trace was written. -/
def skipped (r : Report) : Nat := r.functions - r.written

/-- Adds two reports. -/
def add (a b : Report) : Report where
  functions := a.functions + b.functions
  written := a.written + b.written
  fitFailures := a.fitFailures + b.fitFailures
  schemaMismatches := a.schemaMismatches + b.schemaMismatches
  missingDays := a.missingDays + b.missingDays

instance : Add Report := ⟨add⟩

/-- The sum of the reports of all shards. -/
def total (reports : List Report) : Report := reports.foldl (· + ·) empty

/-- Every counter fits into a word. -/
structure Fits (r : Report) : Prop where
  functions : r.functions < UInt64.size
  written : r.written < UInt64.size
  fitFailures : r.fitFailures < UInt64.size
  schemaMismatches : r.schemaMismatches < UInt64.size
  missingDays : r.missingDays < UInt64.size

/-- Counters only grow. -/
theorem Fits.of_add {a b : Report} (h : (a + b).Fits) : a.Fits where
  functions := Nat.lt_of_le_of_lt (Nat.le_add_right _ _) h.functions
  written := Nat.lt_of_le_of_lt (Nat.le_add_right _ _) h.written
  fitFailures := Nat.lt_of_le_of_lt (Nat.le_add_right _ _) h.fitFailures
  schemaMismatches := Nat.lt_of_le_of_lt (Nat.le_add_right _ _) h.schemaMismatches
  missingDays := Nat.lt_of_le_of_lt (Nat.le_add_right _ _) h.missingDays

theorem Fits.of_foldl {reports : List Report} {a : Report}
    (h : (reports.foldl (· + ·) a).Fits) : a.Fits := by
  induction reports generalizing a with
  | nil => exact h
  | cons b reports ih => exact (ih h).of_add

/-- No sum wraps around on the way to a sum that fits. -/
theorem Fits.of_total_append {before after : List Report}
    (h : (total (before ++ after)).Fits) : (total before).Fits := by
  unfold total at h
  rw [List.foldl_append] at h
  exact h.of_foldl

end Report

/-! ## Counters in words -/

/-- A report that counts in words.  Sums wrap around. -/
structure WordReport where
  functions : UInt64
  written : UInt64
  fitFailures : UInt64
  schemaMismatches : UInt64
  missingDays : UInt64
deriving DecidableEq, Repr

namespace WordReport

def empty : WordReport := ⟨0, 0, 0, 0, 0⟩

/-- The difference is cut off at zero. -/
def skipped (w : WordReport) : UInt64 :=
  if w.written ≤ w.functions then w.functions - w.written else 0

def add (a b : WordReport) : WordReport where
  functions := a.functions + b.functions
  written := a.written + b.written
  fitFailures := a.fitFailures + b.fitFailures
  schemaMismatches := a.schemaMismatches + b.schemaMismatches
  missingDays := a.missingDays + b.missingDays

instance : Add WordReport := ⟨add⟩

def total (reports : List WordReport) : WordReport := reports.foldl (· + ·) empty

/-- The counters as numbers. -/
def toReport (w : WordReport) : Report where
  functions := w.functions.toNat
  written := w.written.toNat
  fitFailures := w.fitFailures.toNat
  schemaMismatches := w.schemaMismatches.toNat
  missingDays := w.missingDays.toNat

/-- The words that are left of the counters. -/
def ofReport (r : Report) : WordReport where
  functions := .ofNat r.functions
  written := .ofNat r.written
  fitFailures := .ofNat r.fitFailures
  schemaMismatches := .ofNat r.schemaMismatches
  missingDays := .ofNat r.missingDays

variable {r : Report} {reports : List Report}

/-- Words are added as numbers are, whether the sum fits or not. -/
theorem ofReport_add (a b : Report) : ofReport (a + b) = ofReport a + ofReport b := by
  show ofReport (a.add b) = (ofReport a).add (ofReport b)
  simp only [ofReport, Report.add, add, UInt64.ofNat_add]

theorem ofReport_total (reports : List Report) :
    ofReport (Report.total reports) = total (reports.map ofReport) := by
  have hfold : ∀ a : Report, ofReport (reports.foldl (· + ·) a) =
      (reports.map ofReport).foldl (· + ·) (ofReport a) := by
    induction reports with
    | nil => exact fun a => rfl
    | cons b reports ih =>
      intro a
      rw [List.foldl_cons, List.map_cons, List.foldl_cons, ih, ofReport_add]
  exact hfold .empty

theorem toReport_ofReport (h : r.Fits) : (ofReport r).toReport = r := by
  simp only [toReport, ofReport, UInt64.toNat_ofNat_of_lt' h.functions,
    UInt64.toNat_ofNat_of_lt' h.written, UInt64.toNat_ofNat_of_lt' h.fitFailures,
    UInt64.toNat_ofNat_of_lt' h.schemaMismatches, UInt64.toNat_ofNat_of_lt' h.missingDays]

theorem skipped_toNat (w : WordReport) : w.skipped.toNat = w.toReport.skipped := by
  unfold skipped Report.skipped
  by_cases hle : w.written ≤ w.functions
  · rw [if_pos hle, UInt64.toNat_sub_of_le _ _ hle]
    rfl
  · rw [if_neg hle]
    have hlt : w.functions.toNat ≤ w.written.toNat :=
      Nat.le_of_not_le fun h => hle (UInt64.le_iff_toNat_le.mpr h)
    exact (Nat.sub_eq_zero_of_le hlt).symm

/-- **The bound for words.** As long as the sum of some reports fits, words count the same as
numbers, and the units without a trace are the same number too. -/
theorem total_agrees (h : (Report.total reports).Fits) :
    (total (reports.map ofReport)).toReport = Report.total reports ∧
      (total (reports.map ofReport)).skipped.toNat = (Report.total reports).skipped := by
  have htotal : (total (reports.map ofReport)).toReport = Report.total reports := by
    rw [← ofReport_total, toReport_ofReport h]
  exact ⟨htotal, by rw [skipped_toNat, htotal]⟩

end WordReport

end WorkloadSynth
