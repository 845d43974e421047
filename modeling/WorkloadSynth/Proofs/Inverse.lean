import WorkloadSynth.Proofs.Distribution

/-!
# The interpolated inverse

The inverse of an empirical distribution of natural numbers.  Its shares are quotients of counts,
which rounding keeps apart (`rank_quotient_lt`), and the differences of its values are not rounded at
all, so a point on the line between two steps stays between them and moves up with the probability
(`interpolate_bounds`, `interpolate_mono`).  The inverse is a Galois inverse at every sample, and
the binary search behind it neither leaves its lists nor divides by zero (`inverse_interpolates`).
-/

namespace WorkloadSynth

/-! ## §1 — quotients of counts -/

namespace Double

section Quotient

variable {k k' n : Nat}

/-- A quotient of counts is rounded, and so are the counts if they are large. -/
theorem isRounded_wordQuotient (hk : k ≤ n) (hn : n ≤ 2 ^ 64) (hpos : 0 < n) :
    IsRounded (Float.ofNat k / Float.ofNat n)
      (value (Float.ofNat k) / value (Float.ofNat n)) := by
  have hcount := isRounded_ofNat (hk.trans hn)
  have htotal := isRounded_ofNat hn
  have hvalue := value_ofNat_pos hpos hn
  refine isRounded_of_le (rank_div hcount.isMagnitude htotal.isMagnitude hvalue)
    (div_nonneg hcount.isMagnitude.value_nonneg hvalue.le) (isRounded_ofNat (n := 1) (by decide)) ?_
  rw [Nat.cast_one]
  exact div_le_one_of_le₀ (hcount.mono htotal (by exact_mod_cast hk)) hvalue.le

theorem isRounded_quotient (hk : k ≤ n) (hn : n ≤ 2 ^ 53) (hpos : 0 < n) :
    IsRounded (Float.ofNat k / Float.ofNat n) (k / n) := by
  have hquotient := isRounded_wordQuotient hk (hn.trans (by decide)) hpos
  rwa [value_ofNat (hk.trans hn), value_ofNat hn] at hquotient

/-- Shares do not go down, however many samples there are. -/
theorem quotient_le (hle : k ≤ k') (hk' : k' ≤ n) (hn : n ≤ 2 ^ 64) (hpos : 0 < n) :
    Float.ofNat k / Float.ofNat n ≤ Float.ofNat k' / Float.ofNat n := by
  have hlow := isRounded_wordQuotient (hle.trans hk') hn hpos
  have hhigh := isRounded_wordQuotient hk' hn hpos
  rw [le_iff_value hlow.isMagnitude hhigh.isMagnitude]
  refine hlow.mono hhigh (div_le_div_of_nonneg_right ?_ (value_ofNat_pos hpos hn).le)
  exact (isRounded_ofNat ((hle.trans hk').trans hn)).mono (isRounded_ofNat (hk'.trans hn))
    (by exact_mod_cast hle)

/-- Up to one, rounding moves by at most half the distance of two quotients. -/
theorem IsRounded.abs_sub_le_of_le_one {z : Float} {q : ℚ} (h : IsRounded z q) (hle : q ≤ 1) :
    |value z - q| ≤ 2 ^ (-54 : Int) := by
  have hzero : (0 : ℚ) ≤ 2 ^ (-54 : Int) := (two_zpow_pos _).le
  rcases h.nonneg.lt_or_eq with hpos | rfl
  · rcases hle.lt_or_eq with hlt | rfl
    · have hlog : Int.log 2 q < 0 := (Int.lt_zpow_iff_log_lt one_lt_two hpos).mp hlt
      have hunit : unitExponent q ≤ -53 := by
        unfold unitExponent
        omega
      calc |value z - q| ≤ 2 ^ unitExponent q / 2 := h.abs_sub_le hpos
        _ ≤ 2 ^ (-53 : Int) / 2 :=
          div_le_div_of_nonneg_right (zpow_le_zpow_right₀ one_le_two hunit) two_pos.le
        _ = 2 ^ (-54 : Int) := by norm_num
    -- zero and one are not moved at all
    · have hone : value z = 1 := by
        exact_mod_cast IsRounded.value_natCast (n := 1) (by exact_mod_cast h) (by decide)
      rw [hone, sub_self, abs_zero]
      exact hzero
  · have hnone : value z = 0 := by
      exact_mod_cast IsRounded.value_natCast (n := 0) (by exact_mod_cast h) (by decide)
    rw [hnone, sub_self, abs_zero]
    exact hzero

/-- **Shares of samples stay apart**, as long as the samples can be counted in doubles. -/
theorem rank_quotient_lt (hlt : k < k') (hle : k' ≤ n) (hn : n ≤ 2 ^ 53) :
    rank (Float.ofNat k / Float.ofNat n) < rank (Float.ofNat k' / Float.ofNat n) := by
  have hpos : 0 < n := by omega
  have hnq : (0 : ℚ) < n := Nat.cast_pos.mpr hpos
  have hlow := isRounded_quotient (hlt.le.trans hle) hn hpos
  have hhigh := isRounded_quotient hle hn hpos
  rw [← value_lt_iff hlow.isMagnitude hhigh.isMagnitude]
  have hquotient : ((k' : ℚ) / n) ≤ 1 := div_le_one_of_le₀ (by exact_mod_cast hle) hnq.le
  have hgap : (k : ℚ) / n + 1 / n ≤ k' / n := by
    rw [← add_div]
    exact div_le_div_of_nonneg_right (by exact_mod_cast hlt) hnq.le
  rcases hn.lt_or_eq with hfew | rfl
  -- the distance of two quotients is more than what rounding takes from it on both sides
  · have hwide : 2 * (2 : ℚ) ^ (-54 : Int) < 1 / n := by
      rw [show 2 * (2 : ℚ) ^ (-54 : Int) = 1 / 2 ^ 53 by norm_num]
      exact one_div_lt_one_div_of_lt hnq (by exact_mod_cast hfew)
    have hstep : (0 : ℚ) < 1 / n := by positivity
    have hlow' := (abs_le.mp (hlow.abs_sub_le_of_le_one (by linarith))).2
    have hhigh' := (abs_le.mp (hhigh.abs_sub_le_of_le_one hquotient)).1
    linarith
  -- the quotients are doubles
  · have hexact : ∀ m : Nat, (m : ℚ) / (2 ^ 53 : Nat) = m * 2 ^ (-53 : Int) := fun m => by
      rw [zpow_neg, div_eq_mul_inv]
      norm_num
    rw [hexact] at hlow hhigh
    rw [hlow.value_eq_self (hlt.le.trans hle) (by decide), hhigh.value_eq_self hle (by decide)]
    exact mul_lt_mul_of_pos_right (by exact_mod_cast hlt) (two_zpow_pos _)

end Quotient

end Double

/-! ## §2 — a line between two steps -/

open Double (IsMagnitude IsRounded rank isRounded_of_le le_iff_value lt_iff_value)

/-- A step at a natural number up to `2 ^ 53`, with a share. -/
structure EcdfStep.IsRegular (s : EcdfStep) : Prop where
  isMagnitude_value : IsMagnitude s.value
  isNat : ∃ n ≤ 2 ^ 53, Double.value s.value = (n : Nat)
  isMagnitude_cumulative : IsMagnitude s.cumulative

section Line

variable {low high : EcdfStep} {p q : Float}

/-- Two steps of which one is above the other. -/
structure IsLine (low high : EcdfStep) : Prop where
  isRegular_low : low.IsRegular
  isRegular_high : high.IsRegular
  value_lt : Double.value low.value < Double.value high.value
  cumulative_lt : Double.value low.cumulative < Double.value high.cumulative

/-- A probability between two steps. -/
structure OnLine (low high : EcdfStep) (p : Float) : Prop extends IsLine low high where
  isMagnitude : IsMagnitude p
  low_le : Double.value low.cumulative ≤ Double.value p
  le_high : Double.value p ≤ Double.value high.cumulative

/-- How much of the way between two steps a probability is. -/
def progress (low high : EcdfStep) (p : Float) : Float :=
  (p - low.cumulative) / (high.cumulative - low.cumulative)

/-- How far interpolation goes beyond the lower step. -/
def advance (low high : EcdfStep) (p : Float) : Float :=
  progress low high p * (high.value - low.value)

theorem IsLine.onLine_high (h : IsLine low high) : OnLine low high high.cumulative :=
  ⟨h, h.isRegular_high.isMagnitude_cumulative, h.cumulative_lt.le, le_rfl⟩

theorem OnLine.isRounded_sub (h : OnLine low high p) :
    IsRounded (p - low.cumulative) (Double.value p - Double.value low.cumulative) :=
  isRounded_of_le (Double.rank_sub h.isMagnitude h.isRegular_low.isMagnitude_cumulative h.low_le)
    (sub_nonneg.mpr h.low_le) h.isMagnitude.isRounded
    (sub_le_self _ h.isRegular_low.isMagnitude_cumulative.value_nonneg)

theorem IsLine.rank_width_pos (h : IsLine low high) : 0 < rank (high.cumulative - low.cumulative) :=
  Double.rank_sub_pos h.isRegular_high.isMagnitude_cumulative
    h.isRegular_low.isMagnitude_cumulative h.cumulative_lt

theorem IsLine.value_width_pos (h : IsLine low high) :
    0 < Double.value (high.cumulative - low.cumulative) :=
  h.onLine_high.isRounded_sub.isMagnitude.value_pos h.rank_width_pos

theorem OnLine.sub_le_width (h : OnLine low high p) :
    Double.value (p - low.cumulative) ≤ Double.value (high.cumulative - low.cumulative) :=
  h.isRounded_sub.mono h.onLine_high.isRounded_sub (sub_le_sub_right h.le_high _)

theorem OnLine.isRounded_progress (h : OnLine low high p) :
    IsRounded (progress low high p)
      (Double.value (p - low.cumulative) / Double.value (high.cumulative - low.cumulative)) := by
  have hwidth := h.value_width_pos
  have hsub := h.isRounded_sub.isMagnitude
  refine isRounded_of_le (Double.rank_div hsub h.onLine_high.isRounded_sub.isMagnitude hwidth)
    (div_nonneg hsub.value_nonneg hwidth.le) (Double.isRounded_ofNat (n := 1) (by decide)) ?_
  rw [Nat.cast_one]
  exact div_le_one_of_le₀ h.sub_le_width hwidth.le

theorem OnLine.progress_le_one (h : OnLine low high p) : Double.value (progress low high p) ≤ 1 :=
  h.isRounded_progress.value_le_one (div_le_one_of_le₀ h.sub_le_width h.value_width_pos.le)

/-- The distance of two whole numbers is a whole number, and not rounded. -/
theorem IsLine.isRounded_height (h : IsLine low high) :
    IsRounded (high.value - low.value) (Double.value high.value - Double.value low.value) :=
  isRounded_of_le (Double.rank_sub h.isRegular_high.isMagnitude_value
      h.isRegular_low.isMagnitude_value h.value_lt.le)
    (sub_nonneg.mpr h.value_lt.le) h.isRegular_high.isMagnitude_value.isRounded
    (sub_le_self _ h.isRegular_low.isMagnitude_value.value_nonneg)

theorem IsLine.value_height (h : IsLine low high) :
    Double.value (high.value - low.value) = Double.value high.value - Double.value low.value := by
  obtain ⟨m, hm, hmval⟩ := h.isRegular_low.isNat
  obtain ⟨n, hn, hnval⟩ := h.isRegular_high.isNat
  have hheight := h.isRounded_height
  have hlt := h.value_lt
  rw [hmval, hnval] at hheight hlt ⊢
  have hle : m ≤ n := by exact_mod_cast hlt.le
  rw [← Nat.cast_sub hle] at hheight ⊢
  exact hheight.value_natCast (by omega)

theorem OnLine.progress_mul_le (h : OnLine low high p) :
    Double.value (progress low high p) * (Double.value high.value - Double.value low.value) ≤
      Double.value high.value - Double.value low.value :=
  mul_le_of_le_one_left (sub_nonneg.mpr h.value_lt.le) h.progress_le_one

theorem OnLine.isRounded_advance (h : OnLine low high p) :
    IsRounded (advance low high p) (Double.value (progress low high p) *
      (Double.value high.value - Double.value low.value)) := by
  have hprogress := h.isRounded_progress.isMagnitude
  have hrank := Double.rank_mul hprogress h.isRounded_height.isMagnitude
  rw [h.value_height] at hrank
  exact isRounded_of_le hrank
    (mul_nonneg hprogress.value_nonneg (sub_nonneg.mpr h.value_lt.le)) h.isRounded_height
    h.progress_mul_le

theorem OnLine.add_advance_le (h : OnLine low high p) :
    Double.value low.value + Double.value (advance low high p) ≤ Double.value high.value := by
  have hle := h.isRounded_advance.mono h.isRounded_height h.progress_mul_le
  rw [h.value_height] at hle
  linarith

theorem OnLine.isRounded_interpolate (h : OnLine low high p) :
    IsRounded (Ecdf.interpolate low high p)
      (Double.value low.value + Double.value (advance low high p)) :=
  have hlow := h.isRegular_low.isMagnitude_value
  have hadvance := h.isRounded_advance.isMagnitude
  isRounded_of_le (Double.rank_add hlow hadvance)
    (add_nonneg hlow.value_nonneg hadvance.value_nonneg)
    h.isRegular_high.isMagnitude_value.isRounded h.add_advance_le

/-- **The line stays between its ends.** -/
theorem OnLine.interpolate_bounds (h : OnLine low high p) :
    Double.value low.value ≤ Double.value (Ecdf.interpolate low high p) ∧
      Double.value (Ecdf.interpolate low high p) ≤ Double.value high.value :=
  ⟨h.isRegular_low.isMagnitude_value.isRounded.mono h.isRounded_interpolate
      (le_add_of_nonneg_right h.isRounded_advance.isMagnitude.value_nonneg),
    h.isRounded_interpolate.mono h.isRegular_high.isMagnitude_value.isRounded h.add_advance_le⟩

/-- **The line goes up**, through all four roundings. -/
theorem OnLine.interpolate_mono (h : OnLine low high p) (h' : OnLine low high q)
    (hle : Double.value p ≤ Double.value q) :
    Double.value (Ecdf.interpolate low high p) ≤ Double.value (Ecdf.interpolate low high q) := by
  have hsub := h.isRounded_sub.mono h'.isRounded_sub (sub_le_sub_right hle _)
  have hprogress := h.isRounded_progress.mono h'.isRounded_progress
    (div_le_div_of_nonneg_right hsub h.value_width_pos.le)
  have hadvance := h.isRounded_advance.mono h'.isRounded_advance
    (mul_le_mul_of_nonneg_right hprogress (sub_nonneg.mpr h.value_lt.le))
  exact h.isRounded_interpolate.mono h'.isRounded_interpolate (add_le_add_right hadvance _)

/-- **The line ends at its upper step.** -/
theorem IsLine.interpolate_high (h : IsLine low high) :
    Double.value (Ecdf.interpolate low high high.cumulative) = Double.value high.value := by
  have hend := h.onLine_high
  have hprogress : Double.value (progress low high high.cumulative) = 1 := by
    have hone := hend.isRounded_progress
    rw [div_self h.value_width_pos.ne', ← Nat.cast_one] at hone
    exact_mod_cast hone.value_natCast (by decide)
  have hadvance := hend.isRounded_advance
  rw [hprogress, one_mul] at hadvance
  have hinterpolate := hend.isRounded_interpolate
  rw [hadvance.value_eq h.isRounded_height, h.value_height, add_sub_cancel] at hinterpolate
  exact hinterpolate.value_eq h.isRegular_high.isMagnitude_value.isRounded

end Line

/-! ## §3 — the search for a step -/

namespace Ecdf

/-- Shares that are finite and do not go down, as a binary search over them needs. -/
structure Searchable (e : Ecdf) : Prop where
  isMagnitude : ∀ s ∈ e.steps, IsMagnitude s.cumulative
  pairwise : e.steps.Pairwise fun s t => s.cumulative ≤ t.cumulative

/-- Steps at whole numbers, each above those before it. -/
structure Rising (e : Ecdf) : Prop where
  isRegular : ∀ s ∈ e.steps, s.IsRegular
  pairwise : e.steps.Pairwise IsLine

theorem Rising.searchable {e : Ecdf} (h : e.Rising) : e.Searchable where
  isMagnitude s hs := (h.isRegular s hs).isMagnitude_cumulative
  pairwise := h.pairwise.imp fun hline =>
    (le_iff_value hline.isRegular_low.isMagnitude_cumulative
      hline.isRegular_high.isMagnitude_cumulative).mpr hline.cumulative_lt.le

/-- What the inverse answers if its binary search stops at `i`.  There is no answer if a list has
no element at an index or a divisor is not positive. -/
def inverseAt (e : Ecdf) (i : Nat) (p : Float) : Option Float := do
  let lowest ← e.cumulative[0]?
  if p ≤ lowest then
    e.values[0]?
  else if e.values.length ≤ i then
    guard (0 < e.values.length)
    e.values[e.values.length - 1]?
  else
    guard (0 < i)
    let p₀ ← e.cumulative[i - 1]?
    let p₁ ← e.cumulative[i]?
    let x₀ ← e.values[i - 1]?
    let x₁ ← e.values[i]?
    guard (0.0 < p₁ - p₀)
    pure (x₀ + (p - p₀) / (p₁ - p₀) * (x₁ - x₀))

/-- The answers that there can be. -/
inductive Answer (e : Ecdf) (p : Float) : Nat → Float → Prop where
  | first (hp : p ≤ e.first.cumulative) : Answer e p 0 e.first.value
  | last {j : Nat} {low : EcdfStep} (hp : e.first.cumulative < p) (hlow : e.steps[j]? = some low)
      (hlt : low.cumulative < p) (hnone : e.steps[j + 1]? = none) : Answer e p (j + 1) low.value
  | between {j : Nat} {low high : EcdfStep} (hp : e.first.cumulative < p)
      (hlow : e.steps[j]? = some low) (hlt : low.cumulative < p)
      (hhigh : e.steps[j + 1]? = some high) (hle : p ≤ high.cumulative) :
      Answer e p (j + 1) (interpolate low high p)

section Search

variable {e : Ecdf} {p q z z' : Float} {i : Nat} {s : EcdfStep}

theorem inverseAfter_eq {below low : EcdfStep} {rest : List EcdfStep}
    (hi : IsPartitionPoint (fun s : EcdfStep => s.cumulative < p) rest i)
    (hlow : (below :: rest)[i]? = some low) :
    inverseAfter p below rest =
      match rest[i]? with
      | some high => interpolate low high p
      | none => low.value := by
  induction rest generalizing below i with
  | nil =>
    obtain rfl : i = 0 := Nat.le_zero.mp hi.le_length
    obtain rfl : below = low := Option.some.inj hlow
    rfl
  | cons s rest ih =>
    rw [inverseAfter]
    by_cases hs : s.cumulative < p
    · rw [if_pos hs]
      cases i with
      | zero => exact absurd hs (hi.behind s List.mem_cons_self)
      | succ i =>
        obtain ⟨hle, hbefore, hbehind⟩ := hi
        rw [List.take_succ_cons, List.forall_mem_cons] at hbefore
        exact ih ⟨Nat.le_of_succ_le_succ hle, hbefore.2, hbehind⟩ hlow
    · rw [if_neg hs]
      cases i with
      | zero =>
        obtain rfl : below = low := Option.some.inj hlow
        rfl
      | succ i => exact absurd (hi.before s List.mem_cons_self) hs

theorem Searchable.not_isNaN (h : e.Searchable) (hs : s ∈ e.steps) :
    s.cumulative.isNaN = false :=
  (h.isMagnitude s hs).not_isNaN

theorem Searchable.exists_isPartitionPoint (h : e.Searchable) (p : Float) :
    ∃ i, IsPartitionPoint (· < p) e.cumulative i :=
  WorkloadSynth.exists_isPartitionPoint (List.pairwise_map.mpr (h.pairwise.imp fun hst htp =>
    Double.lt_of_le_of_lt hst htp))

/-- **The inverse is the answer at the place where a binary search stops.** -/
theorem Searchable.answer (h : e.Searchable) (hp : p.isNaN = false)
    (hi : IsPartitionPoint (fun s : EcdfStep => s.cumulative < p) e.steps i) :
    Answer e p i (e.inverse p) := by
  have hfirst := h.not_isNaN (s := e.first) List.mem_cons_self
  unfold inverse
  cases i with
  | zero =>
    have hle := (Double.not_lt_iff hfirst hp).mp (hi.behind e.first List.mem_cons_self)
    rw [if_pos hle]
    exact .first hle
  | succ j =>
    have hlt : e.first.cumulative < p := hi.before e.first List.mem_cons_self
    have hrest : IsPartitionPoint (fun s : EcdfStep => s.cumulative < p) e.rest j :=
      ⟨Nat.le_of_succ_le_succ hi.le_length, (List.forall_mem_cons.mp hi.before).2, hi.behind⟩
    have hj : j < e.steps.length := hi.le_length
    have hlow : e.steps[j]? = some e.steps[j] := List.getElem?_eq_getElem hj
    generalize e.steps[j] = low at hlow
    have hlow' := hi.of_lt hlow (Nat.lt_succ_self j)
    rw [if_neg (fun hle => (Double.not_lt_iff hfirst hp).mpr hle hlt), inverseAfter_eq hrest hlow]
    cases hhigh : e.rest[j]? with
    | none => exact .last hlt hlow hlow' hhigh
    | some high =>
      have hhigh' : e.steps[j + 1]? = some high := hhigh
      have hstep := h.not_isNaN (List.mem_of_getElem? hhigh')
      exact .between hlt hlow hlow' hhigh'
        ((Double.not_lt_iff hstep hp).mp (hi.not_of_le hhigh' le_rfl))

theorem Searchable.exists_answer (h : e.Searchable) (hp : p.isNaN = false) :
    ∃ i, IsPartitionPoint (fun s : EcdfStep => s.cumulative < p) e.steps i ∧
      Answer e p i (e.inverse p) := by
  obtain ⟨i, hi⟩ := h.exists_isPartitionPoint p
  exact ⟨i, hi.of_map, h.answer hp hi.of_map⟩

/-- Where two steps are next to each other, there is a line. -/
theorem Rising.onLine (h : e.Rising) {j : Nat} {low high : EcdfStep}
    (hlow : e.steps[j]? = some low) (hlt : low.cumulative < p)
    (hhigh : e.steps[j + 1]? = some high) (hle : p ≤ high.cumulative) : OnLine low high p := by
  obtain ⟨hj, rfl⟩ := List.getElem?_eq_some_iff.mp hlow
  obtain ⟨hj', rfl⟩ := List.getElem?_eq_some_iff.mp hhigh
  have hline := List.pairwise_iff_getElem.mp h.pairwise j (j + 1) hj hj' (Nat.lt_succ_self j)
  have hlowmag := hline.isRegular_low.isMagnitude_cumulative
  have hhighmag := hline.isRegular_high.isMagnitude_cumulative
  have hp := (Double.not_isNaN_of_lt hlt).2
  -- a double between two magnitudes is one
  have hmag : IsMagnitude p := Double.isMagnitude_of_rank_le
    (hlowmag.1.trans ((Double.lt_iff_rank hlowmag.not_isNaN hp).mp hlt).le) hhighmag
    ((Double.le_iff_rank hp hhighmag.not_isNaN).mp hle)
  exact ⟨hline, hmag, ((lt_iff_value hlowmag hmag).mp hlt).le, (le_iff_value hmag hhighmag).mp hle⟩

theorem Answer.isMagnitude (h : e.Rising) (hz : Answer e p i z) : IsMagnitude z := by
  cases hz with
  | first => exact (h.isRegular _ List.mem_cons_self).isMagnitude_value
  | last _ hlow => exact (h.isRegular _ (List.mem_of_getElem? hlow)).isMagnitude_value
  | between _ hlow hlt hhigh hle =>
    exact (h.onLine hlow hlt hhigh hle).isRounded_interpolate.isMagnitude

section Answers

variable (h : e.Rising) (hi : IsPartitionPoint (fun s : EcdfStep => s.cumulative < p) e.steps i)
  (hz : Answer e p i z) (hs : s ∈ e.steps)

include h hi hz hs

/-- Answers are not above a step that reaches the probability. -/
theorem Answer.le_of_not_lt (hle : ¬ s.cumulative < p) :
    Double.value z ≤ Double.value s.value := by
  cases hz with
  | first =>
    rcases hi.eq_or_rel_behind h.pairwise rfl hs hle with rfl | hline
    · exact le_rfl
    · exact hline.value_lt.le
  | last _ _ _ hnone => exact absurd (hi.of_none hnone hs) hle
  | between _ hlow hlt hhigh hle' =>
    have hbounds := (h.onLine hlow hlt hhigh hle').interpolate_bounds.2
    rcases hi.eq_or_rel_behind h.pairwise hhigh hs hle with rfl | hline
    · exact hbounds
    · exact hbounds.trans hline.value_lt.le

/-- Answers are not below a step that does not reach the probability. -/
theorem Answer.ge_of_lt (hlt : s.cumulative < p) : Double.value s.value ≤ Double.value z := by
  cases hz with
  | first => exact absurd hlt (hi.behind s hs)
  | last _ hlow =>
    rcases hi.eq_or_rel h.pairwise hlow hs hlt with rfl | hline
    · exact le_rfl
    · exact hline.value_lt.le
  | between _ hlow hlt' hhigh hle =>
    have hbounds := (h.onLine hlow hlt' hhigh hle).interpolate_bounds.1
    rcases hi.eq_or_rel h.pairwise hlow hs hlt with rfl | hline
    · exact hbounds
    · exact hline.value_lt.le.trans hbounds

/-- Answers are not below a step at the probability: lines end at their upper step. -/
theorem Answer.ge_of_le (hle : s.cumulative ≤ p) : Double.value s.value ≤ Double.value z := by
  have hregular := h.isRegular s hs
  have hsmag := hregular.isMagnitude_cumulative
  obtain ⟨hsnan, hp⟩ := Double.not_isNaN_of_le hle
  by_cases hlt : s.cumulative < p
  · exact Answer.ge_of_lt h hi hz hs hlt
  have hrank : rank s.cumulative = rank p := by
    rw [Double.le_iff_rank hsnan hp] at hle
    rw [Double.lt_iff_rank hsnan hp] at hlt
    omega
  have hpmag : IsMagnitude p := ⟨hrank ▸ hsmag.1, hrank ▸ hsmag.2⟩
  have hvalue := Double.value_eq_of_rank_eq hsmag hpmag hrank
  have hreached : ∀ t ∈ e.steps, p ≤ t.cumulative → ¬ IsLine t s := by
    intro t ht hpt hline
    have htmag := (h.isRegular t ht).isMagnitude_cumulative
    rw [le_iff_value hpmag htmag, ← hvalue] at hpt
    exact hline.cumulative_lt.not_ge hpt
  cases hz with
  | first hp' =>
    rcases hi.eq_or_rel_behind h.pairwise rfl hs hlt with rfl | hline
    · exact le_rfl
    · exact absurd hline (hreached _ List.mem_cons_self hp')
  | last _ _ _ hnone => exact absurd (hi.of_none hnone hs) hlt
  | between _ hlow hlt' hhigh hle' =>
    rcases hi.eq_or_rel_behind h.pairwise hhigh hs hlt with rfl | hline
    · have honLine := h.onLine hlow hlt' hhigh hle'
      rw [← honLine.interpolate_high]
      exact honLine.onLine_high.interpolate_mono honLine hvalue.le
    · exact absurd hline (hreached _ (List.mem_of_getElem? hhigh) hle')

end Answers

/-- Probabilities that no step tells apart are on one line, if on any. -/
theorem Answer.mono_of_eq (h : e.Rising) (hz : Answer e p i z) (hz' : Answer e q i z')
    (hle : p ≤ q) : Double.value z ≤ Double.value z' := by
  cases hz with
  | first => cases hz' with
    | first => exact le_rfl
  | last _ hlow _ hnone => cases hz' with
    | last _ hlow' =>
      obtain rfl := Option.some.inj (hlow.symm.trans hlow')
      exact le_rfl
    | between _ _ _ hhigh =>
      rw [hnone] at hhigh
      cases hhigh
  | between _ hlow hlt hhigh hle' => cases hz' with
    | last _ _ _ hnone =>
      rw [hnone] at hhigh
      cases hhigh
    | between _ hlow₂ hlt₂ hhigh₂ hle₂ =>
      obtain rfl := Option.some.inj (hlow.symm.trans hlow₂)
      obtain rfl := Option.some.inj (hhigh.symm.trans hhigh₂)
      have hline := h.onLine hlow hlt hhigh hle'
      have hline' := h.onLine hlow hlt₂ hhigh hle₂
      exact hline.interpolate_mono hline'
        ((le_iff_value hline.isMagnitude hline'.isMagnitude).mp hle)

theorem Rising.isMagnitude_inverse (h : e.Rising) (hp : p.isNaN = false) :
    IsMagnitude (e.inverse p) := by
  obtain ⟨i, -, hz⟩ := h.searchable.exists_answer hp
  exact hz.isMagnitude h

theorem Rising.inverse_le (h : e.Rising) (hs : s ∈ e.steps) (hle : p ≤ s.cumulative) :
    e.inverse p ≤ s.value := by
  obtain ⟨hp, hsnan⟩ := Double.not_isNaN_of_le hle
  obtain ⟨i, hi, hz⟩ := h.searchable.exists_answer hp
  rw [le_iff_value (h.isMagnitude_inverse hp) (h.isRegular s hs).isMagnitude_value]
  exact hz.le_of_not_lt h hi hs ((Double.not_lt_iff hsnan hp).mpr hle)

theorem Rising.le_inverse (h : e.Rising) (hs : s ∈ e.steps) (hle : s.cumulative ≤ p) :
    s.value ≤ e.inverse p := by
  obtain ⟨-, hp⟩ := Double.not_isNaN_of_le hle
  obtain ⟨i, hi, hz⟩ := h.searchable.exists_answer hp
  rw [le_iff_value (h.isRegular s hs).isMagnitude_value (h.isMagnitude_inverse hp)]
  exact hz.ge_of_le h hi hs hle

/-- **The inverse goes up.** -/
theorem Rising.inverse_mono (h : e.Rising) (hle : p ≤ q) : e.inverse p ≤ e.inverse q := by
  obtain ⟨hp, hq⟩ := Double.not_isNaN_of_le hle
  by_cases hknot : ∃ s ∈ e.steps, p ≤ s.cumulative ∧ s.cumulative ≤ q
  -- a step in between keeps the answers apart
  · obtain ⟨s, hs, hps, hsq⟩ := hknot
    exact Double.le_trans (h.inverse_le hs hps) (h.le_inverse hs hsq)
  -- otherwise both searches stop at the same place
  · obtain ⟨i, hi, hz⟩ := h.searchable.exists_answer hp
    have hsame : IsPartitionPoint (fun s : EcdfStep => s.cumulative < q) e.steps i := by
      refine ⟨hi.le_length, fun s hs => ?_, fun s hs hsq => ?_⟩
      · exact Double.lt_of_lt_of_le (hi.before s hs) hle
      · have hs' := List.mem_of_mem_drop hs
        have hps := (Double.not_lt_iff (h.searchable.not_isNaN hs') hp).mp (hi.behind s hs)
        exact hknot ⟨s, hs', hps, Double.le_of_lt hsq⟩
    rw [le_iff_value (h.isMagnitude_inverse hp) (h.isMagnitude_inverse hq)]
    exact hz.mono_of_eq h (h.searchable.answer hq hsame) hle

/-- **The inverse of a share is exact**, also in the sign of a zero, which is the first value. -/
theorem Rising.inverse_cumulative (h : e.Rising) (hs : s ∈ e.steps) :
    e.inverse s.cumulative = s.value := by
  have hself : s.cumulative ≤ s.cumulative := Double.le_refl (h.searchable.not_isNaN hs)
  rcases List.mem_cons.mp hs with rfl | hrest
  · exact if_pos hself
  · have hline := (List.pairwise_cons.mp h.pairwise).1 s hrest
    have hsmag := hline.isRegular_high.isMagnitude_value
    have hmag := h.isMagnitude_inverse (h.searchable.not_isNaN hs)
    have hle := (Double.le_iff_rank hmag.not_isNaN hsmag.not_isNaN).mp (h.inverse_le hs hself)
    have hge := (Double.le_iff_rank hsmag.not_isNaN hmag.not_isNaN).mp (h.le_inverse hs hself)
    have hfirst := hline.isRegular_low.isMagnitude_value
    have hpos := hfirst.1.trans_lt ((Double.value_lt_iff hfirst hsmag).mp hline.value_lt)
    exact Double.eq_of_rank_eq (le_antisymm hle hge) (hpos.trans_le hge).ne'

theorem Rising.inverse_bounds (h : e.Rising) (hp : p.isNaN = false) :
    (∃ s ∈ e.steps, s.value ≤ e.inverse p) ∧ ∃ s ∈ e.steps, e.inverse p ≤ s.value := by
  have hmag := h.isMagnitude_inverse hp
  obtain ⟨i, -, hz⟩ := h.searchable.exists_answer hp
  have hself := Double.le_refl hmag.not_isNaN
  generalize e.inverse p = z at hmag hz hself ⊢
  cases hz with
  | first => exact ⟨⟨_, List.mem_cons_self, hself⟩, _, List.mem_cons_self, hself⟩
  | last _ hlow =>
    have hmem := List.mem_of_getElem? hlow
    exact ⟨⟨_, hmem, hself⟩, _, hmem, hself⟩
  | between _ hlow hlt hhigh hle =>
    have hline := h.onLine hlow hlt hhigh hle
    have hbounds := hline.interpolate_bounds
    exact ⟨⟨_, List.mem_of_getElem? hlow,
        (le_iff_value hline.isRegular_low.isMagnitude_value hmag).mpr hbounds.1⟩,
      _, List.mem_of_getElem? hhigh,
        (le_iff_value hmag hline.isRegular_high.isMagnitude_value).mpr hbounds.2⟩

/-- Half of the way between two steps. -/
example : inverse ⟨⟨0.0, 0.5⟩, [⟨10.0, 1.0⟩]⟩ 0.75 = 5.0 := by decide +kernel

theorem cumulative_getElem? {step : EcdfStep} {j : Nat} (h : e.steps[j]? = some step) :
    e.cumulative[j]? = some step.cumulative := by
  unfold cumulative
  rw [List.getElem?_map, h]
  rfl

theorem values_getElem? {step : EcdfStep} {j : Nat} (h : e.steps[j]? = some step) :
    e.values[j]? = some step.value := by
  unfold values
  rw [List.getElem?_map, h]
  rfl

/-- **All accesses are inside the lists, and all divisors are positive.** -/
theorem Answer.inverseAt_eq (h : e.Searchable) (hz : Answer e p i z) : e.inverseAt i p = some z := by
  have hfirst : e.cumulative[0]? = some e.first.cumulative := rfl
  have hlength : e.values.length = e.steps.length := List.length_map _
  unfold inverseAt
  rw [hfirst, Option.bind_eq_bind, Option.bind_some]
  cases hz with
  | first hp =>
    rw [if_pos hp]
    rfl
  | @last j low hp hlow _ hnone =>
    obtain ⟨hj, -⟩ := List.getElem?_eq_some_iff.mp hlow
    have hend := List.getElem?_eq_none_iff.mp hnone
    obtain ⟨hnan, hnan'⟩ := Double.not_isNaN_of_lt hp
    have hindex : e.values.length - 1 = j := by omega
    rw [if_neg ((Double.not_le_iff hnan' hnan).mpr hp), if_pos (by omega), hindex,
      values_getElem? hlow, guard, if_pos (by omega)]
    rfl
  | @between j low high hp hlow hlt hhigh hle =>
    obtain ⟨hj, -⟩ := List.getElem?_eq_some_iff.mp hhigh
    obtain ⟨hnan, hnan'⟩ := Double.not_isNaN_of_lt hp
    have hwidth := Double.sub_pos_of_lt (h.isMagnitude high (List.mem_of_getElem? hhigh))
      (h.isMagnitude low (List.mem_of_getElem? hlow)) (Double.lt_of_lt_of_le hlt hle)
    rw [if_neg ((Double.not_le_iff hnan' hnan).mpr hp), if_neg (by omega), Nat.add_sub_cancel,
      cumulative_getElem? hlow, cumulative_getElem? hhigh, values_getElem? hlow,
      values_getElem? hhigh]
    simp [guard, hwidth, interpolate]

end Search

/-! ## §4 — samples that are whole numbers -/

/-- A natural number up to `2 ^ 53`; zero may have a sign. -/
def IsNatural (x : Float) : Prop := ∃ n ≤ 2 ^ 53, (x == Float.ofNat n) = true

theorem IsNatural.exists_value {x : Float} (h : IsNatural x) :
    IsMagnitude x ∧ ∃ n ≤ 2 ^ 53, Double.value x = (n : Nat) := by
  obtain ⟨n, hn, hbeq⟩ := h
  obtain ⟨hx, hnan⟩ := Double.not_isNaN_of_beq hbeq
  have hrank := (Double.beq_iff_rank hx hnan).mp hbeq
  have hnat := Double.isMagnitude_ofNat (hn.trans (by decide))
  have hmag : IsMagnitude x := ⟨hrank ▸ hnat.1, hrank ▸ hnat.2⟩
  exact ⟨hmag, n, hn, (Double.value_eq_of_rank_eq hmag hnat hrank).trans (Double.value_ofNat hn)⟩

/-- A greater sample adds itself to the count. -/
theorem countUpTo_lt {samples : List Float} {x y : Float} (hy : y ∈ samples) (hlt : x < y) :
    countUpTo samples x < countUpTo samples y := by
  have hmono : ∀ z ∈ samples, decide (z ≤ x) = true → decide (z ≤ y) = true := by
    intro z _ hzx
    rw [decide_eq_true_iff] at hzx ⊢
    exact Double.le_trans hzx (Double.le_of_lt hlt)
  obtain ⟨hx, hy'⟩ := Double.not_isNaN_of_lt hlt
  have hyx : ¬ y ≤ x := (Double.not_le_iff hy' hx).mpr hlt
  have hyy : y ≤ y := Double.le_refl hy'
  obtain ⟨before, behind, rfl⟩ := List.append_of_mem hy
  have hbefore := List.countP_mono_left (l := before) fun z hz => hmono z (by simp [hz])
  have hbehind := List.countP_mono_left (l := behind) fun z hz => hmono z (by simp [hz])
  unfold countUpTo
  rw [List.countP_append, List.countP_append, List.countP_cons_of_neg (by simpa using hyx),
    List.countP_cons_of_pos (by simpa using hyy)]
  omega

section Naturals

variable {samples : List Float} {e : Ecdf}

theorem IsDistributionOf.cumulative_eq (h : IsDistributionOf samples e) {s : EcdfStep}
    (hs : s ∈ e.steps) : s.cumulative = share samples s.value := by
  have hmap := h.cumulative
  unfold cumulative values at hmap
  rw [List.map_map] at hmap
  exact List.map_inj_left.mp hmap s hs

theorem IsDistributionOf.rising (h : IsDistributionOf samples e) (hlen : samples.length ≤ 2 ^ 53)
    (hnat : ∀ x ∈ samples, IsNatural x) : e.Rising := by
  have hmem : ∀ s ∈ e.steps, s.value ∈ samples := fun s hs => h.mem _ (List.mem_map_of_mem hs)
  have hregular : ∀ s ∈ e.steps, s.IsRegular := by
    intro s hs
    obtain ⟨hmag, hvalue⟩ := (hnat _ (hmem s hs)).exists_value
    refine ⟨hmag, hvalue, ?_⟩
    rw [h.cumulative_eq hs]
    exact (Double.isRounded_quotient List.countP_le_length hlen
      (List.length_pos_of_mem (hmem s hs))).isMagnitude
  refine ⟨hregular, (List.pairwise_map.mp h.increasing).imp_of_mem fun {s t} hs ht hlt => ?_⟩
  have hs' := hregular s hs
  have ht' := hregular t ht
  refine ⟨hs', ht', ?_, ?_⟩
  · exact (lt_iff_value hs'.isMagnitude_value ht'.isMagnitude_value).mp hlt
  · rw [Double.value_lt_iff hs'.isMagnitude_cumulative ht'.isMagnitude_cumulative,
      h.cumulative_eq hs, h.cumulative_eq ht]
    exact Double.rank_quotient_lt (countUpTo_lt (hmem t ht) hlt) List.countP_le_length hlen

/-- The inverse of a distribution is one as far as a function with steps has one. -/
structure IsInvertible (samples : List Float) (e : Ecdf) : Prop where
  /-- A binary search over the shares can stop, and wherever it does, the inverse looks only at
  elements that are there and divides only by a positive number. -/
  search : ∀ p, p.isNaN = false → (∃ i, IsPartitionPoint (· < p) e.cumulative i) ∧
    ∀ i, IsPartitionPoint (· < p) e.cumulative i → e.inverseAt i p = some (e.inverse p)
  /-- Up to the share of a sample the inverse is at most the sample, ... -/
  inverse_le : ∀ v ∈ samples, ∀ p, p ≤ e.cdf v → e.inverse p ≤ v
  /-- ... and from there on it is at least the sample. -/
  le_inverse : ∀ v ∈ samples, ∀ p, e.cdf v ≤ p → v ≤ e.inverse p
  /-- The inverse of the share of a value is the value. -/
  inverse_cdf : ∀ v ∈ e.values, e.inverse (e.cdf v) = v
  /-- All results lie between two samples. -/
  bounds : ∀ p, p.isNaN = false →
    (∃ v ∈ samples, v ≤ e.inverse p) ∧ ∃ v ∈ samples, e.inverse p ≤ v
  /-- A greater probability does not give a smaller result. -/
  mono : ∀ p q, p ≤ q → e.inverse p ≤ e.inverse q

/-- The share at a sample is that of its step. -/
theorem IsDistributionOf.exists_step (h : IsDistributionOf samples e) {v : Float}
    (hv : v ∈ samples) :
    ∃ s ∈ e.steps, (v == s.value) = true ∧ e.cdf v = s.cumulative := by
  obtain ⟨w, hw, hbeq⟩ := h.covers v hv
  obtain ⟨s, hs, rfl⟩ := List.mem_map.mp hw
  refine ⟨s, hs, hbeq, ?_⟩
  rw [h.cdf, h.cumulative_eq hs, share, share, countUpTo_of_beq hbeq]

theorem IsDistributionOf.isInvertible (h : IsDistributionOf samples e)
    (hlen : samples.length ≤ 2 ^ 53) (hnat : ∀ x ∈ samples, IsNatural x) :
    IsInvertible samples e := by
  have hrising := h.rising hlen hnat
  have hmem : ∀ s ∈ e.steps, s.value ∈ samples := fun s hs => h.mem _ (List.mem_map_of_mem hs)
  refine ⟨fun p hp => ⟨hrising.searchable.exists_isPartitionPoint p, fun i hi =>
    (hrising.searchable.answer hp hi.of_map).inverseAt_eq hrising.searchable⟩, ?_, ?_, ?_, ?_,
    fun p q => hrising.inverse_mono⟩
  · intro v hv p hle
    obtain ⟨s, hs, hbeq, hcdf⟩ := h.exists_step hv
    exact Double.le_of_le_of_beq (hrising.inverse_le hs (hcdf ▸ hle)) hbeq
  · intro v hv p hle
    obtain ⟨s, hs, hbeq, hcdf⟩ := h.exists_step hv
    exact Double.le_of_beq_of_le hbeq (hrising.le_inverse hs (hcdf ▸ hle))
  · intro v hv
    obtain ⟨s, hs, rfl⟩ := List.mem_map.mp hv
    rw [h.cdf, ← h.cumulative_eq hs]
    exact hrising.inverse_cumulative hs
  · intro p hp
    obtain ⟨⟨s, hs, hle⟩, t, ht, hge⟩ := hrising.inverse_bounds hp
    exact ⟨⟨_, hmem s hs, hle⟩, _, hmem t ht, hge⟩

/-- **The interpolated inverse.** Up to `2 ^ 53` samples that are natural numbers up to `2 ^ 53`
have a distribution with an inverse, at probabilities outside zero to one as well. -/
theorem inverse_interpolates (hne : samples ≠ []) (hlen : samples.length ≤ 2 ^ 53)
    (hnat : ∀ x ∈ samples, IsNatural x) :
    ∃ e, ofSamples samples = some e ∧ IsInvertible samples e := by
  have hfinite : ∀ x ∈ samples, x.isFinite = true := fun x hx =>
    (hnat x hx).exists_value.1.isFinite
  obtain ⟨e, he⟩ := exists_ofSamples hne hfinite
  have hdistribution := isDistributionOf_ofSamples he
  rw [List.filter_eq_self.mpr hfinite] at hdistribution
  exact ⟨e, he, hdistribution.isInvertible hlen hnat⟩

/-- Counts with ties and the greatest one. -/
theorem inverse_interpolates_ties :
    ∃ e, ofSamples [10.0, 0.0, 9007199254740992.0, 10.0] = some e ∧
      IsInvertible [10.0, 0.0, 9007199254740992.0, 10.0] e := by
  refine inverse_interpolates (List.cons_ne_nil _ _) (by decide) ?_
  intro x hx
  simp only [List.mem_cons, List.not_mem_nil, or_false] at hx
  rcases hx with rfl | rfl | rfl | rfl
  · exact ⟨10, by decide, by decide +kernel⟩
  · exact ⟨0, by decide, by decide +kernel⟩
  · exact ⟨2 ^ 53, by decide, by decide +kernel⟩
  · exact ⟨10, by decide, by decide +kernel⟩

end Naturals

end Ecdf

end WorkloadSynth
