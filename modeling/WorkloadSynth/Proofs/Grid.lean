import Mathlib
import WorkloadSynth.Trace.Basic

/-!
# Timestamp grids

A grid has one timestamp for each interval that a duration needs: an interval is needed exactly if
those before it are over too early (`lt_ceilDiv_iff`).  So the timestamps are the multiples of the
interval from the interval itself to less than one interval beyond the duration (`IsGrid`).  They
are words that the program multiplies, and as long as the last of them fits, none of them wraps
(`grid_multiples`).
-/

namespace WorkloadSynth

/-! ## §1 — multiples that cover a duration -/

/-- The increasing list of the multiples of an interval that end the intervals of a duration. -/
structure IsGrid (duration interval : Nat) (times : List Nat) : Prop where
  /-- Timestamps go up, ... -/
  increasing : times.Pairwise (· < ·)
  /-- ... all multiples within the duration and one interval more are among them, ... -/
  mem_iff : ∀ m, m ∈ times ↔ interval ∣ m ∧ interval ≤ m ∧ m < duration + interval
  /-- ... which are as many as the intervals that the duration has begun, ... -/
  length : times.length = duration ⌈/⌉ interval
  /-- ... and one interval lies between two neighbours. -/
  step : ∀ (k m m' : Nat), times[k]? = some m → times[k + 1]? = some m' → m' = m + interval
  /-- The last timestamp covers the duration, by less than one interval more. -/
  last : ∀ m, times.getLast? = some m → duration ≤ m ∧ m < duration + interval
  /-- Only a duration of zero has no timestamps. -/
  eq_nil_iff : times = [] ↔ duration = 0

section Multiples

variable {duration interval k : Nat}

/-- An interval is needed if those before it do not cover the duration. -/
theorem lt_ceilDiv_iff (hpos : 0 < interval) :
    k < duration ⌈/⌉ interval ↔ interval * k < duration := by
  rw [← not_le, ← not_le, ceilDiv_le_iff_le_mul hpos]

/-- The first `n` multiples of a number. -/
def multiples (interval n : Nat) : List Nat := (List.range n).map fun k => interval * (k + 1)

@[simp]
theorem multiples_length (interval n : Nat) : (multiples interval n).length = n := by
  simp [multiples]

theorem multiples_getElem?_eq_some_iff {n m : Nat} :
    (multiples interval n)[k]? = some m ↔ k < n ∧ interval * (k + 1) = m := by
  unfold multiples
  rw [List.getElem?_map, Option.map_eq_some_iff]
  constructor
  · rintro ⟨i, hi, hm⟩
    obtain ⟨hk, rfl⟩ := List.getElem?_eq_some_iff.mp hi
    rw [List.length_range] at hk
    rw [List.getElem_range] at hm
    exact ⟨hk, hm⟩
  · rintro ⟨hk, hm⟩
    exact ⟨k, List.getElem?_range hk, hm⟩

theorem mem_multiples_iff (hpos : 0 < interval) {m : Nat} :
    m ∈ multiples interval (duration ⌈/⌉ interval) ↔
      interval ∣ m ∧ interval ≤ m ∧ m < duration + interval := by
  rw [List.mem_iff_getElem?]
  simp only [multiples_getElem?_eq_some_iff, lt_ceilDiv_iff hpos]
  constructor
  · rintro ⟨k, hk, rfl⟩
    rw [Nat.mul_add_one]
    exact ⟨⟨k + 1, (Nat.mul_add_one interval k).symm⟩, Nat.le_add_left _ _, by omega⟩
  · rintro ⟨⟨j, rfl⟩, hle, hlt⟩
    -- the multiple by zero comes before the first interval
    cases j with
    | zero => exact absurd hle (by omega)
    | succ k =>
      rw [Nat.mul_add_one] at hlt
      exact ⟨k, by omega, rfl⟩

/-- The last interval that is needed covers the duration. -/
theorem le_of_getLast?_multiples (hpos : 0 < interval) {m : Nat}
    (h : (multiples interval (duration ⌈/⌉ interval)).getLast? = some m) : duration ≤ m := by
  rw [List.getLast?_eq_getElem?, multiples_length] at h
  obtain ⟨hk, rfl⟩ := multiples_getElem?_eq_some_iff.mp h
  rw [← ceilDiv_le_iff_le_mul hpos]
  omega

/-- **The first multiples of an interval are a grid.** -/
theorem isGrid_multiples (hpos : 0 < interval) :
    IsGrid duration interval (multiples interval (duration ⌈/⌉ interval)) where
  increasing := by
    refine List.pairwise_map.mpr (List.pairwise_lt_range.imp fun {i j} hij => ?_)
    exact Nat.mul_lt_mul_of_pos_left (Nat.succ_lt_succ hij) hpos
  mem_iff _ := mem_multiples_iff hpos
  length := multiples_length _ _
  step k m m' hm hm' := by
    obtain ⟨-, rfl⟩ := multiples_getElem?_eq_some_iff.mp hm
    obtain ⟨-, rfl⟩ := multiples_getElem?_eq_some_iff.mp hm'
    exact Nat.mul_add_one _ _
  last m hm :=
    ⟨le_of_getLast?_multiples hpos hm, ((mem_multiples_iff hpos).mp (List.mem_of_getLast? hm)).2.2⟩
  eq_nil_iff := by
    rw [← List.length_eq_zero_iff, multiples_length, ← Nat.le_zero, ceilDiv_le_iff_le_mul hpos,
      Nat.mul_zero, Nat.le_zero]

end Multiples

/-! ## §2 — timestamps as words -/

section Words

variable {duration interval : UInt64}

theorem gridSize_eq_ceilDiv (duration interval : UInt64) :
    gridSize duration interval = duration.toNat ⌈/⌉ interval.toNat := by
  rw [Nat.ceilDiv_eq_add_pred_div]
  rfl

/-- The first `n` multiples of a word, which wrap if they do not fit. -/
def wordMultiples (interval : UInt64) (n : Nat) : List UInt64 :=
  (List.range n).map fun i => UInt64.ofNat (i + 1) * interval

theorem grid_of_ne_zero (h : interval ≠ 0) :
    grid duration interval = .ok (wordMultiples interval (gridSize duration interval)) := if_neg h

theorem grid_eq_error_iff {e : Error} :
    grid duration interval = .error e ↔
      interval = 0 ∧ e = .invalidConfig "trace interval must be positive" := by
  by_cases h : interval = 0
  · rw [grid, if_pos h, Except.error.injEq, eq_comm]
    exact (and_iff_right h).symm
  · rw [grid_of_ne_zero h]
    exact iff_of_false nofun fun h' => h h'.1

/-- Multiples do not wrap if the last one does not. -/
theorem map_toNat_wordMultiples {n : Nat} (hn : n * interval.toNat < 2 ^ 64)
    (hpos : 0 < interval.toNat) :
    (wordMultiples interval n).map UInt64.toNat = multiples interval.toNat n := by
  unfold wordMultiples multiples
  rw [List.map_map]
  refine List.map_congr_left fun k hk => ?_
  have hlt : (k + 1) * interval.toNat < 2 ^ 64 :=
    (Nat.mul_le_mul_right _ (List.mem_range.mp hk)).trans_lt hn
  have hword : (UInt64.ofNat (k + 1)).toNat = k + 1 :=
    UInt64.toNat_ofNat_of_lt' ((Nat.le_mul_of_pos_right _ hpos).trans_lt hlt)
  rw [Function.comp_apply, UInt64.toNat_mul, hword, Nat.mod_eq_of_lt hlt, Nat.mul_comm]

end Words

/-- **A grid is the multiples of its interval.** The only refusal is that of an interval of zero.
Otherwise, if the last timestamp is a word, the timestamps are the multiples of the interval up to
the first that covers the duration. -/
theorem grid_multiples (duration interval : UInt64) :
    (∀ e, grid duration interval = .error e ↔
      interval = 0 ∧ e = .invalidConfig "trace interval must be positive") ∧
    (0 < interval → (duration.toNat ⌈/⌉ interval.toNat) * interval.toNat < 2 ^ 64 →
      ∃ times, grid duration interval = .ok times ∧
        IsGrid duration.toNat interval.toNat (times.map UInt64.toNat)) := by
  refine ⟨fun e => grid_eq_error_iff, fun hpos hfits => ?_⟩
  have hpos' : 0 < interval.toNat := UInt64.lt_iff_toNat_lt.mp hpos
  rw [← gridSize_eq_ceilDiv] at hfits
  refine ⟨_, grid_of_ne_zero (UInt64.pos_iff_ne_zero.mp hpos), ?_⟩
  rw [map_toNat_wordMultiples hfits hpos', gridSize_eq_ceilDiv]
  exact isGrid_multiples hpos'

/-- The greatest word as a duration, by a third of it: the last timestamp is the greatest word too,
and covers the duration to the millisecond. -/
theorem grid_multiples_greatest :
    (0 : UInt64) < 6148914691236517205 ∧
      ((18446744073709551615 : UInt64).toNat ⌈/⌉ (6148914691236517205 : UInt64).toNat) *
        (6148914691236517205 : UInt64).toNat < 2 ^ 64 ∧
      grid 18446744073709551615 6148914691236517205 =
        .ok [6148914691236517205, 12297829382473034410, 18446744073709551615] ∧
      IsGrid 18446744073709551615 6148914691236517205
        [6148914691236517205, 12297829382473034410, 18446744073709551615] := by
  have hpos : (0 : UInt64) < 6148914691236517205 := by decide
  have hfits : ((18446744073709551615 : UInt64).toNat ⌈/⌉ (6148914691236517205 : UInt64).toNat) *
      (6148914691236517205 : UInt64).toNat < 2 ^ 64 := by decide
  have hthird : grid 18446744073709551615 6148914691236517205 =
      .ok [6148914691236517205, 12297829382473034410, 18446744073709551615] := by cbv
  obtain ⟨times, htimes, hgrid⟩ := (grid_multiples _ _).2 hpos hfits
  obtain rfl := Except.ok.inj (hthird.symm.trans htimes)
  exact ⟨hpos, hfits, hthird, hgrid⟩

end WorkloadSynth
