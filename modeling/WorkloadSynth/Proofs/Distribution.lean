import WorkloadSynth.Proofs.NearestDouble
import WorkloadSynth.Proofs.TwoRuns

/-!
# The empirical distribution counts samples

The steps of an empirical distribution are made in one pass over the sorted samples, in which a run
of equal samples overwrites the share of its step.  What the pass makes is determined by counting
(`Counts`): the steps are the distinct values in increasing order, and the share of a step is the
number of samples up to it, divided by the number of all.  So is the distribution function at every
double (`ofSamples_counting`), wherever a binary search over the steps stops.
-/

namespace WorkloadSynth

/-! ## §1 — binary searches -/

/-- Where a list stops satisfying a condition for good: what a binary search finds. -/
structure IsPartitionPoint {α : Type} (P : α → Prop) (xs : List α) (i : Nat) : Prop where
  le_length : i ≤ xs.length
  before : ∀ x ∈ xs.take i, P x
  behind : ∀ x ∈ xs.drop i, ¬ P x

section PartitionPoint

variable {α : Type} {P : α → Prop} {xs : List α} {i : Nat}

theorem IsPartitionPoint.of_map {β : Type} {f : β → α} {ys : List β}
    (h : IsPartitionPoint P (ys.map f) i) : IsPartitionPoint (fun y => P (f y)) ys i := by
  obtain ⟨hle, hbefore, hbehind⟩ := h
  rw [List.length_map] at hle
  rw [← List.map_take, List.forall_mem_map] at hbefore
  rw [← List.map_drop, List.forall_mem_map] at hbehind
  exact ⟨hle, hbefore, hbehind⟩

theorem IsPartitionPoint.of_lt {j : Nat} {x : α} (h : IsPartitionPoint P xs i)
    (hx : xs[j]? = some x) (hj : j < i) : P x := by
  apply h.before
  apply List.mem_of_getElem?
  rw [List.getElem?_take_of_lt hj, hx]

theorem IsPartitionPoint.not_of_le {j : Nat} {x : α} (h : IsPartitionPoint P xs i)
    (hx : xs[j]? = some x) (hj : i ≤ j) : ¬ P x := by
  apply h.behind
  apply List.mem_of_getElem? (i := j - i)
  rw [List.getElem?_drop, Nat.add_sub_cancel' hj, hx]

theorem IsPartitionPoint.of_none {x : α} (h : IsPartitionPoint P xs i) (hnone : xs[i]? = none)
    (hx : x ∈ xs) : P x := by
  apply h.before
  rwa [List.take_of_length_le (List.getElem?_eq_none_iff.mp hnone)]

/-- A last element that does not satisfy the condition stops the search. -/
theorem IsPartitionPoint.lt_length {x : α} (h : IsPartitionPoint P xs i)
    (hlast : xs.getLast? = some x) (hx : ¬ P x) : i < xs.length := by
  by_contra hle
  have hnone : xs[i]? = none := List.getElem?_eq_none (not_lt.mp hle)
  exact hx (h.of_none hnone (List.mem_of_getLast? hlast))

theorem IsPartitionPoint.takeWhile_eq [DecidablePred P] (h : IsPartitionPoint P xs i) :
    xs.takeWhile (P ·) = xs.take i := by
  have hdrop : (xs.drop i).takeWhile (P ·) = [] := by
    cases hrest : xs.drop i with
    | nil => rfl
    | cons x rest =>
      have hx := h.behind x (hrest ▸ List.mem_cons_self)
      rw [List.takeWhile_cons_of_neg (by simpa using hx)]
  conv_lhs => rw [← List.take_append_drop i xs]
  rw [List.takeWhile_append_of_pos fun x hx => decide_eq_true (h.before x hx), hdrop,
    List.append_nil]

/-- In a list in order, the last element before the place comes behind all that satisfy the
condition. -/
theorem IsPartitionPoint.eq_or_rel {R : α → α → Prop} {j : Nat} {y z : α}
    (h : IsPartitionPoint P xs (j + 1)) (hR : xs.Pairwise R) (hz : xs[j]? = some z) (hy : y ∈ xs)
    (hP : P y) : y = z ∨ R y z := by
  have htake : xs.take (j + 1) = xs.take j ++ [z] := by
    rw [List.take_add_one, hz]
    rfl
  rw [← List.take_append_drop (j + 1) xs] at hy
  rcases List.mem_append.mp hy with hbefore | hbehind
  · have hordered := hR.sublist (List.take_sublist (j + 1) xs)
    rw [htake] at hbefore hordered
    rcases List.mem_append.mp hbefore with hbefore | hlast
    · exact .inr ((List.pairwise_append.mp hordered).2.2 y hbefore z List.mem_cons_self)
    · exact .inl (List.mem_singleton.mp hlast)
  · exact absurd hP (h.behind y hbehind)

/-- The first element behind the place comes before all that do not satisfy the condition. -/
theorem IsPartitionPoint.eq_or_rel_behind {R : α → α → Prop} {y z : α}
    (h : IsPartitionPoint P xs i) (hR : xs.Pairwise R) (hz : xs[i]? = some z) (hy : y ∈ xs)
    (hP : ¬ P y) : y = z ∨ R z y := by
  obtain ⟨hi, rfl⟩ := List.getElem?_eq_some_iff.mp hz
  rw [← List.take_append_drop i xs] at hy
  rcases List.mem_append.mp hy with hbefore | hbehind
  · exact absurd (h.before y hbefore) hP
  · have hordered := hR.sublist (List.drop_sublist i xs)
    rw [List.drop_eq_getElem_cons hi] at hbehind hordered
    rcases List.mem_cons.mp hbehind with hfirst | hbehind
    · exact .inl hfirst
    · exact .inr ((List.pairwise_cons.mp hordered).1 y hbehind)

/-- A list that satisfies a condition up to some place has such a place. -/
theorem exists_isPartitionPoint (h : xs.Pairwise fun x y => P y → P x) :
    ∃ i, IsPartitionPoint P xs i := by
  induction xs with
  | nil => exact ⟨0, le_refl 0, nofun, nofun⟩
  | cons x rest ih =>
    obtain ⟨hx, hrest⟩ := List.pairwise_cons.mp h
    by_cases hpx : P x
    · obtain ⟨i, hi⟩ := ih hrest
      refine ⟨i + 1, Nat.succ_le_succ hi.le_length, ?_, hi.behind⟩
      rw [List.take_succ_cons]
      exact List.forall_mem_cons.mpr ⟨hpx, hi.before⟩
    · refine ⟨0, Nat.zero_le _, nofun, ?_⟩
      exact List.forall_mem_cons.mpr ⟨hpx, fun y hy hpy => hpx (hx y hy hpy)⟩

end PartitionPoint

/-! ## §2 — the order of sorting -/

namespace Double

section TotalOrder

variable {x y : Float}

theorem toNat_orderKey (x : Float) :
    (orderKey x).toNat =
      if x.toBits.toNat < 2 ^ 63 then x.toBits.toNat + 2 ^ 63 else 2 ^ 64 - 1 - x.toBits.toNat := by
  unfold orderKey
  by_cases hneg : isNegative x = true
  · rw [if_pos hneg, if_neg (not_lt.mpr (isNegative_iff.mp hneg)), UInt64.toNat_not]
    rfl
  · have hlt : x.toBits.toNat < 2 ^ 63 := not_le.mp (mt isNegative_iff.mpr hneg)
    rw [if_neg hneg, if_pos hlt, UInt64.toNat_or]
    show x.toBits.toNat ||| 2 ^ 63 = _
    have hor := Nat.two_pow_add_eq_or_of_lt hlt 1
    rw [mul_one] at hor
    rw [Nat.or_comm, ← hor, Nat.add_comm]

theorem totalLe_iff : totalLe x y = true ↔ (orderKey x).toNat ≤ (orderKey y).toNat := by
  unfold totalLe
  rw [decide_eq_true_iff, UInt64.le_iff_toNat_le]

/-- Sorting puts doubles in the order of their places. -/
theorem rank_le_of_totalLe (h : totalLe x y = true) : rank x ≤ rank y := by
  have hx := x.toBits.toNat_lt
  have hy := y.toBits.toNat_lt
  rw [totalLe_iff, toNat_orderKey, toNat_orderKey] at h
  unfold rank
  split_ifs at h ⊢ <;> omega

/-- Nothing is left to the order in which samples come. -/
theorem totalLe_antisymm (h : totalLe x y = true) (h' : totalLe y x = true) : x = y := by
  have hx := x.toBits.toNat_lt
  have hy := y.toBits.toNat_lt
  rw [totalLe_iff, toNat_orderKey, toNat_orderKey] at h h'
  apply Float.toBits_inj.mp
  apply UInt64.toNat.inj
  split_ifs at h h' <;> omega

theorem pairwise_mergeSort_totalLe (xs : List Float) :
    (xs.mergeSort totalLe).Pairwise fun x y => totalLe x y = true := by
  apply List.pairwise_mergeSort
  · intro x y z hxy hyz
    rw [totalLe_iff] at hxy hyz ⊢
    exact hxy.trans hyz
  · intro x y
    rw [Bool.or_eq_true, totalLe_iff, totalLe_iff]
    exact le_total _ _

theorem mergeSort_totalLe_of_perm {xs ys : List Float} (h : xs.Perm ys) :
    xs.mergeSort totalLe = ys.mergeSort totalLe :=
  List.Perm.eq_of_pairwise (fun _ _ _ _ => totalLe_antisymm) (pairwise_mergeSort_totalLe xs)
    (pairwise_mergeSort_totalLe ys)
    (((List.mergeSort_perm xs totalLe).trans h).trans (List.mergeSort_perm ys totalLe).symm)

end TotalOrder

end Double

/-! ## §3 — the pass over the sorted samples -/

/-- How many samples are at most `x`. -/
def countUpTo (samples : List Float) (x : Float) : Nat := samples.countP (· ≤ x)

/-- The share of the samples that are at most `x`, as a quotient of doubles. -/
def share (samples : List Float) (x : Float) : Float :=
  Float.ofNat (countUpTo samples x) / Float.ofNat samples.length

/-- What the steps of samples are, if `base` samples come before them. -/
structure Counts (total base : Nat) (samples : List Float) (steps : List EcdfStep) : Prop where
  increasing : steps.Pairwise (·.value < ·.value)
  mem : ∀ s ∈ steps, s.value ∈ samples
  covers : ∀ x ∈ samples, ∃ s ∈ steps, (x == s.value) = true
  share : ∀ s ∈ steps,
    s.cumulative = Float.ofNat (base + countUpTo samples s.value) / Float.ofNat total

section Pass

open Double (rank le_iff_rank lt_iff_rank beq_iff_rank not_le_iff)

variable {total base : Nat} {x : Float} {samples : List Float} {steps : List EcdfStep}

theorem countUpTo_cons_of_le {y : Float} (h : x ≤ y) :
    countUpTo (x :: samples) y = countUpTo samples y + 1 :=
  List.countP_cons_of_pos (decide_eq_true h)

theorem countUpTo_eq_zero (h : ∀ y ∈ samples, ¬ y ≤ x) : countUpTo samples x = 0 :=
  List.countP_eq_zero.mpr fun y hy => by simpa using h y hy

theorem countUpTo_congr {y : Float} (h : ∀ z ∈ samples, z ≤ x ↔ z ≤ y) :
    countUpTo samples x = countUpTo samples y :=
  List.countP_congr fun z hz => by simpa using h z hz

/-- The two zeros count the same. -/
theorem countUpTo_of_beq {y : Float} (h : (x == y) = true) :
    countUpTo samples x = countUpTo samples y :=
  countUpTo_congr fun _ _ =>
    ⟨fun hzx => Double.le_of_le_of_beq hzx (Double.beq_symm h),
      fun hzy => Double.le_of_le_of_beq hzy h⟩

/-- A sample in front counts for all steps. -/
theorem Counts.share_cons (h : Counts total (base + 1) samples steps) (hle : ∀ y ∈ samples, x ≤ y)
    {s : EcdfStep} (hs : s ∈ steps) :
    s.cumulative = Float.ofNat (base + countUpTo (x :: samples) s.value) / Float.ofNat total := by
  rw [countUpTo_cons_of_le (hle _ (h.mem s hs)), h.share s hs, Nat.add_assoc, Nat.add_comm 1]

section Front

variable {next : EcdfStep} {rest : List EcdfStep}

/-- One more of the samples that come first. -/
theorem Counts.cons_of_beq (h : Counts total (base + 1) samples (next :: rest))
    (hle : ∀ y ∈ samples, x ≤ y) (heq : (x == next.value) = true) :
    Counts total base (x :: samples) ({ next with value := x } :: rest) := by
  have hx := (Double.not_isNaN_of_beq heq).1
  obtain ⟨hlt, hincreasing⟩ := List.pairwise_cons.mp h.increasing
  obtain ⟨-, hmem⟩ := List.forall_mem_cons.mp h.mem
  refine ⟨List.pairwise_cons.mpr ⟨fun s hs => ?_, hincreasing⟩, ?_, ?_, ?_⟩
  · exact Double.lt_of_beq_of_lt heq (hlt s hs)
  · exact List.forall_mem_cons.mpr
      ⟨List.mem_cons_self, fun s hs => List.mem_cons_of_mem _ (hmem s hs)⟩
  · refine List.forall_mem_cons.mpr ⟨⟨_, List.mem_cons_self, Double.beq_self hx⟩, fun y hy => ?_⟩
    obtain ⟨s, hs, hys⟩ := h.covers y hy
    rcases List.mem_cons.mp hs with rfl | hs
    · exact ⟨_, List.mem_cons_self, Double.beq_trans hys (Double.beq_symm heq)⟩
    · exact ⟨s, List.mem_cons_of_mem _ hs, hys⟩
  · refine List.forall_mem_cons.mpr ⟨?_, fun s hs => h.share_cons hle (List.mem_cons_of_mem _ hs)⟩
    rw [h.share_cons hle List.mem_cons_self, countUpTo_of_beq heq]

/-- A sample below the first step is a step of its own. -/
theorem Counts.cons_of_lt (h : Counts total (base + 1) samples (next :: rest))
    (hle : ∀ y ∈ samples, x ≤ y) (hlt : x < next.value) :
    Counts total base (x :: samples)
      (⟨x, Float.ofNat (base + 1) / Float.ofNat total⟩ :: next :: rest) := by
  have hx := (Double.not_isNaN_of_lt hlt).1
  have hbelow : ∀ s ∈ next :: rest, x < s.value :=
    List.forall_mem_cons.mpr ⟨hlt, fun s hs =>
      Double.lt_trans hlt ((List.pairwise_cons.mp h.increasing).1 s hs)⟩
  -- every other sample is at one of the steps behind, so none is at most `x`
  have habove : ∀ y ∈ samples, ¬ y ≤ x := by
    intro y hy hyx
    obtain ⟨s, hs, hys⟩ := h.covers y hy
    have hxs := hbelow s hs
    exact (not_le_iff (Double.not_isNaN_of_lt hxs).2 hx).mpr hxs
      (Double.le_of_beq_of_le (Double.beq_symm hys) hyx)
  refine ⟨List.pairwise_cons.mpr ⟨hbelow, h.increasing⟩, ?_, ?_, ?_⟩
  · exact List.forall_mem_cons.mpr
      ⟨List.mem_cons_self, fun s hs => List.mem_cons_of_mem _ (h.mem s hs)⟩
  · refine List.forall_mem_cons.mpr ⟨⟨_, List.mem_cons_self, Double.beq_self hx⟩, fun y hy => ?_⟩
    obtain ⟨s, hs, hys⟩ := h.covers y hy
    exact ⟨s, List.mem_cons_of_mem _ hs, hys⟩
  · refine List.forall_mem_cons.mpr ⟨?_, fun s hs => h.share_cons hle hs⟩
    rw [countUpTo_cons_of_le (Double.le_refl hx), countUpTo_eq_zero habove]

end Front

/-- **The pass counts.** -/
theorem counts_stepsFrom (hnumber : ∀ x ∈ samples, x.isNaN = false)
    (hsorted : samples.Pairwise fun x y => rank x ≤ rank y) :
    Counts total base samples (Ecdf.stepsFrom total (base + 1) samples) := by
  induction samples generalizing base with
  | nil => exact ⟨List.Pairwise.nil, nofun, nofun, nofun⟩
  | cons x samples ih =>
    obtain ⟨hx, hsamples⟩ := List.forall_mem_cons.mp hnumber
    obtain ⟨hrank, hsorted'⟩ := List.pairwise_cons.mp hsorted
    have hle : ∀ y ∈ samples, x ≤ y := fun y hy =>
      (le_iff_rank hx (hsamples y hy)).mpr (hrank y hy)
    have hcounts : Counts total (base + 1) samples _ := ih hsamples hsorted'
    rw [Ecdf.stepsFrom]
    generalize Ecdf.stepsFrom total (base + 1 + 1) samples = steps at hcounts ⊢
    cases steps with
    | nil =>
      cases samples with
      | nil =>
        refine ⟨List.pairwise_singleton _ _, ?_, ?_, ?_⟩
        · exact List.forall_mem_singleton.mpr List.mem_cons_self
        · exact List.forall_mem_singleton.mpr ⟨_, List.mem_cons_self, Double.beq_self hx⟩
        · refine List.forall_mem_singleton.mpr ?_
          rw [countUpTo_cons_of_le (Double.le_refl hx)]
          rfl
      | cons y rest =>
        obtain ⟨s, hs, -⟩ := hcounts.covers y List.mem_cons_self
        cases hs
    | cons next rest =>
      have hnext := hcounts.mem next List.mem_cons_self
      by_cases heq : (x == next.value) = true
      · simp only [heq, if_true]
        exact hcounts.cons_of_beq hle heq
      · simp only [heq]
        rw [beq_iff_rank hx (hsamples _ hnext)] at heq
        have hlt := lt_of_le_of_ne (hrank _ hnext) heq
        exact hcounts.cons_of_lt hle ((lt_iff_rank hx (hsamples _ hnext)).mpr hlt)

end Pass

/-! ## §4 — the distribution function -/

theorem Counts.of_perm {total base : Nat} {samples samples' : List Float}
    {steps : List EcdfStep} (h : Counts total base samples steps) (hperm : samples.Perm samples') :
    Counts total base samples' steps where
  increasing := h.increasing
  mem s hs := hperm.mem_iff.mp (h.mem s hs)
  covers x hx := h.covers x (hperm.mem_iff.mpr hx)
  share s hs := by
    rw [h.share s hs]
    unfold countUpTo
    rw [hperm.countP_eq]

section Reached

variable {total base j : Nat} {x : Float} {samples : List Float} {steps : List EcdfStep}

/-- The step of a sample is at most what the sample is at most. -/
theorem Counts.exists_le (h : Counts total base samples steps) {y : Float} (hy : y ∈ samples)
    (hyx : y ≤ x) : ∃ s ∈ steps, (y == s.value) = true ∧ s.value ≤ x := by
  obtain ⟨s, hs, hys⟩ := h.covers y hy
  exact ⟨s, hs, hys, Double.le_of_beq_of_le (Double.beq_symm hys) hyx⟩

/-- Below the first step there are no samples. -/
theorem Counts.countUpTo_eq_zero (h : Counts total base samples steps)
    (hi : IsPartitionPoint (fun s : EcdfStep => s.value ≤ x) steps 0) :
    countUpTo samples x = 0 := by
  apply WorkloadSynth.countUpTo_eq_zero
  intro y hy hyx
  obtain ⟨s, hs, -, hsx⟩ := h.exists_le hy hyx
  exact hi.behind s hs hsx

/-- Between two steps there are no samples. -/
theorem Counts.countUpTo_eq (h : Counts total base samples steps)
    (hi : IsPartitionPoint (fun s : EcdfStep => s.value ≤ x) steps (j + 1)) {s : EcdfStep}
    (hlast : steps[j]? = some s) : countUpTo samples s.value = countUpTo samples x := by
  have hsx : s.value ≤ x := hi.of_lt hlast (Nat.lt_succ_self j)
  apply countUpTo_congr
  intro y hy
  constructor
  · intro hys
    exact Double.le_trans hys hsx
  · intro hyx
    obtain ⟨t, ht, hyt, htx⟩ := h.exists_le hy hyx
    apply Double.le_of_beq_of_le hyt
    rcases hi.eq_or_rel h.increasing hlast ht htx with rfl | hts
    · exact Double.le_refl (Double.not_isNaN_of_le htx).1
    · exact Double.le_of_lt hts

end Reached

namespace Ecdf

/-- What the distribution function answers if its binary search stops at `i`. -/
def cdfAt (e : Ecdf) (i : Nat) : Option Float := if i = 0 then some 0.0 else e.cumulative[i - 1]?

/-- The empirical distribution of finite samples. -/
structure IsDistributionOf (samples : List Float) (e : Ecdf) : Prop where
  /-- The values are in increasing order, ... -/
  increasing : e.values.Pairwise (· < ·)
  /-- ... each of them is a sample, ... -/
  mem : ∀ v ∈ e.values, v ∈ samples
  /-- ... and all samples are among them. -/
  covers : ∀ x ∈ samples, ∃ v ∈ e.values, (x == v) = true
  /-- The shares at the values are counted. -/
  cumulative : e.cumulative = e.values.map (share samples)
  /-- The share at any double is counted. -/
  cdf : ∀ x, e.cdf x = share samples x
  /-- A binary search over the values can stop, and wherever it does, it answers that share. -/
  search : ∀ x, (∃ i, IsPartitionPoint (· ≤ x) e.values i) ∧
    ∀ i, IsPartitionPoint (· ≤ x) e.values i → e.cdfAt i = some (e.cdf x)

section Function

variable {samples : List Float} {e : Ecdf} {i : Nat} {x : Float}

theorem cdf_of_isPartitionPoint (hi : IsPartitionPoint (· ≤ x) e.values i) :
    e.cdfAt i = some (e.cdf x) := by
  have hsteps : IsPartitionPoint (fun s : EcdfStep => s.value ≤ x) e.steps i := hi.of_map
  have hle := hsteps.le_length
  unfold cdf cdfAt cumulative
  rw [hsteps.takeWhile_eq, List.getElem?_map, List.getLast?_take]
  by_cases h0 : i = 0
  · rw [if_pos h0, if_pos h0]
  · rw [if_neg h0, if_neg h0, List.getElem?_eq_getElem (by omega)]
    rfl

/-- **The distribution function counts**, wherever the search for its step stops. -/
theorem cdf_eq_share (hcounts : Counts samples.length 0 samples e.steps) (hne : samples ≠ [])
    (hi : IsPartitionPoint (· ≤ x) e.values i) : e.cdf x = share samples x := by
  have hat := cdf_of_isPartitionPoint hi
  have hsteps : IsPartitionPoint (fun s : EcdfStep => s.value ≤ x) e.steps i := hi.of_map
  unfold share
  cases i with
  | zero =>
    have hpos := Double.ofNat_pos (List.length_pos_iff.mpr hne)
    rw [hcounts.countUpTo_eq_zero hsteps]
    exact (Option.some.inj hat).symm.trans (Double.zero_div_of_pos hpos).symm
  | succ j =>
    have hj : j < e.steps.length := hsteps.le_length
    have hlast : e.steps[j]? = some e.steps[j] := List.getElem?_eq_getElem hj
    generalize e.steps[j] = s at hlast
    have hcdf : e.cdf x = s.cumulative := by
      unfold cdfAt cumulative at hat
      rw [if_neg (Nat.succ_ne_zero j), List.getElem?_map, Nat.add_sub_cancel, hlast] at hat
      exact (Option.some.inj hat).symm
    rw [hcdf, hcounts.share s (List.mem_of_getElem? hlast), Nat.zero_add,
      hcounts.countUpTo_eq hsteps hlast]

theorem isDistributionOf_of_counts (hcounts : Counts samples.length 0 samples e.steps)
    (hne : samples ≠ []) : IsDistributionOf samples e := by
  -- a value at most some double has only values like that before it
  have hsearch : ∀ x, ∃ i, IsPartitionPoint (· ≤ x) e.values i := fun x =>
    exists_isPartitionPoint (List.pairwise_map.mpr (hcounts.increasing.imp fun hst htx =>
      Double.le_trans (Double.le_of_lt hst) htx))
  refine ⟨List.pairwise_map.mpr hcounts.increasing, List.forall_mem_map.mpr hcounts.mem, ?_, ?_, ?_,
    fun x => ⟨hsearch x, fun i hi => cdf_of_isPartitionPoint hi⟩⟩
  · intro x hx
    obtain ⟨s, hs, hxs⟩ := hcounts.covers x hx
    exact ⟨s.value, List.mem_map_of_mem hs, hxs⟩
  · unfold cumulative values
    rw [List.map_map]
    refine List.map_congr_left fun s hs => ?_
    rw [hcounts.share s hs, Nat.zero_add]
    rfl
  · intro x
    obtain ⟨i, hi⟩ := hsearch x
    exact cdf_eq_share hcounts hne hi

/-- All samples are at most the last value. -/
theorem IsDistributionOf.getLast?_cumulative (h : IsDistributionOf samples e)
    (hnumber : ∀ y ∈ samples, y.isNaN = false) (hlen : samples.length ≤ 2 ^ 64) :
    e.cumulative.getLast? = some 1.0 := by
  have hne : e.values ≠ [] := List.cons_ne_nil _ _
  obtain ⟨rest, v, hvalues⟩ := List.eq_nil_or_concat' e.values |>.resolve_left hne
  have hmem : v ∈ samples := h.mem v (by rw [hvalues]; simp)
  have hall : countUpTo samples v = samples.length := by
    refine List.countP_eq_length.mpr fun x hx => decide_eq_true ?_
    obtain ⟨w, hw, hxw⟩ := h.covers x hx
    apply Double.le_of_beq_of_le hxw
    have hincreasing := h.increasing
    rw [hvalues] at hw hincreasing
    rcases List.mem_append.mp hw with hw | hw
    · exact Double.le_of_lt ((List.pairwise_append.mp hincreasing).2.2 w hw v List.mem_cons_self)
    · rw [List.mem_singleton.mp hw]
      exact Double.le_refl (hnumber v hmem)
  rw [h.cumulative, hvalues, List.map_append, List.map_singleton, List.getLast?_concat, share, hall]
  exact congrArg some (Double.ofNat_div_self (List.length_pos_of_mem hmem) hlen)

end Function

section Samples

variable {samples : List Float} {e : Ecdf}

theorem not_isNaN_of_mem_filter : ∀ x ∈ samples.filter Float.isFinite, x.isNaN = false :=
  fun _ hx => Double.isNaN_of_isFinite (List.mem_filter.mp hx).2

theorem ofSamples_eq_none_iff :
    ofSamples samples = none ↔ samples.filter Float.isFinite = [] := by
  unfold ofSamples
  constructor
  · intro h
    have hsorted : (samples.filter Float.isFinite).mergeSort Double.totalLe = [] := by
      cases hs : (samples.filter Float.isFinite).mergeSort Double.totalLe with
      | nil => rfl
      | cons x xs =>
        obtain ⟨first, rest, hsteps⟩ := List.exists_cons_of_ne_nil
          (stepsFrom_cons_ne_nil (x :: xs).length 1 x xs)
        rw [hs] at h
        dsimp only at h
        rw [hsteps] at h
        cases h
    have hperm := List.mergeSort_perm (samples.filter Float.isFinite) Double.totalLe
    rw [hsorted] at hperm
    exact hperm.nil_eq.symm
  · intro h
    rw [h, List.mergeSort_nil]
    rfl

/-- The steps of a distribution are counted, in whatever order the samples come. -/
theorem counts_ofSamples (h : ofSamples samples = some e) :
    Counts (samples.filter Float.isFinite).length 0 (samples.filter Float.isFinite) e.steps := by
  have hnumber : ∀ x ∈ samples.filter Float.isFinite, x.isNaN = false := not_isNaN_of_mem_filter
  unfold ofSamples at h
  generalize samples.filter Float.isFinite = finite at h hnumber ⊢
  have hperm := List.mergeSort_perm finite Double.totalLe
  have hsorted := (Double.pairwise_mergeSort_totalLe finite).imp Double.rank_le_of_totalLe
  have hcounts : Counts finite.length 0 (finite.mergeSort Double.totalLe) _ :=
    counts_stepsFrom (fun x hx => hnumber x (hperm.mem_iff.mp hx)) hsorted
  dsimp only at h
  rw [List.length_mergeSort] at h
  generalize stepsFrom finite.length (0 + 1) (finite.mergeSort Double.totalLe) = steps at h hcounts
  cases steps with
  | nil => cases h
  | cons first rest =>
    cases h
    exact hcounts.of_perm hperm

theorem isDistributionOf_ofSamples (h : ofSamples samples = some e) :
    IsDistributionOf (samples.filter Float.isFinite) e := by
  refine isDistributionOf_of_counts (counts_ofSamples h) fun hnone => ?_
  rw [ofSamples_eq_none_iff.mpr hnone] at h
  cases h

/-- **The empirical distribution is the counting distribution** of the finite samples, and does not
depend on their order.  Its last share is one; this needs that the number of samples is a word, as
it is for every list in memory, since no double is large enough for some greater numbers. -/
theorem ofSamples_counting (samples : List Float) :
    (ofSamples samples = none ↔ samples.filter Float.isFinite = []) ∧
    (∀ e, ofSamples samples = some e →
      IsDistributionOf (samples.filter Float.isFinite) e ∧
        (samples.length < UInt64.size → e.cumulative.getLast? = some 1.0)) ∧
    ∀ samples', samples.Perm samples' → ofSamples samples' = ofSamples samples := by
  refine ⟨ofSamples_eq_none_iff, fun e he => ?_, fun samples' hperm => ?_⟩
  · have hdistribution := isDistributionOf_ofSamples he
    refine ⟨hdistribution, fun hlen => ?_⟩
    exact hdistribution.getLast?_cumulative not_isNaN_of_mem_filter
      ((List.length_filter_le _ _).trans hlen.le)
  · unfold ofSamples
    rw [Double.mergeSort_totalLe_of_perm (hperm.symm.filter Float.isFinite)]

/-- Samples with ties, both zeros and what is not finite. -/
def mixedSamples : List Float := [3.0, 0.0, 0.0 / 0.0, -0.0, 3.0, 1.0 / 0.0, 5.0]

theorem ofSamples_mixedSamples :
    ofSamples mixedSamples = some ⟨⟨-0.0, 0.4⟩, [⟨3.0, 0.8⟩, ⟨5.0, 1.0⟩]⟩ := by
  have hperm : (mixedSamples.filter Float.isFinite).Perm [-0.0, 0.0, 3.0, 3.0, 5.0] := by
    decide +kernel
  unfold ofSamples
  rw [Double.mergeSort_totalLe_of_perm hperm, List.mergeSort_of_pairwise (by decide +kernel)]
  decide +kernel

/-- The two zeros are one value, and the samples can be reversed. -/
theorem ofSamples_counting_mixed :
    ∃ e, ofSamples mixedSamples = some e ∧ IsDistributionOf [3.0, 0.0, -0.0, 3.0, 5.0] e ∧
      e.cumulative.getLast? = some 1.0 ∧ ofSamples mixedSamples.reverse = some e := by
  obtain ⟨-, hsome, hperm⟩ := ofSamples_counting mixedSamples
  obtain ⟨hdistribution, hlast⟩ := hsome _ ofSamples_mixedSamples
  have hfinite : mixedSamples.filter Float.isFinite = [3.0, 0.0, -0.0, 3.0, 5.0] := by
    decide +kernel
  rw [hfinite] at hdistribution
  have hreverse := hperm _ (List.reverse_perm mixedSamples).symm
  exact ⟨_, ofSamples_mixedSamples, hdistribution, hlast (by decide),
    hreverse.trans ofSamples_mixedSamples⟩

end Samples

end Ecdf

end WorkloadSynth
