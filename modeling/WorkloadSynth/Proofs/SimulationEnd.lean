import WorkloadSynth.Proofs.NearestDouble
import WorkloadSynth.Trace.Basic

/-!
# The end of a simulation

`simulationEnd` goes through the rows of a trace in their order and compares seconds, which are
rounded.  Rounding keeps the order of the milliseconds (`seconds_mono`), so where it hides a later
end the rounded seconds are the same (`seconds_eq_of_not_lt`), and a pass over the rows ends with
the seconds of the latest end in milliseconds (`endsAt_simulationEnd`).
-/

namespace WorkloadSynth

/-! ## §1 — seconds -/

namespace Double

theorem isMagnitude_thousand : IsMagnitude 1000.0 := ⟨by decide +kernel, by decide +kernel⟩

theorem value_thousand_pos : 0 < value 1000.0 := isMagnitude_thousand.value_pos (by decide +kernel)

end Double

open Double

/-- Milliseconds in seconds. -/
def seconds (ms : UInt64) : Float := ms.toFloat / 1000.0

theorem rank_seconds (ms : UInt64) :
    rank (seconds ms) = nearestRank (value ms.toFloat / value 1000.0) :=
  rank_div (isRounded_toFloat ms).isMagnitude isMagnitude_thousand value_thousand_pos

theorem not_isNaN_seconds (ms : UInt64) : (seconds ms).isNaN = false := by
  apply not_isNaN_of_rank
  · rw [rank_seconds]
    exact nearestRank_nonneg _
  · rw [rank_seconds]
    exact nearestRank_le _

/-- **Rounding keeps the order.** -/
theorem seconds_mono {m n : UInt64} (h : m ≤ n) : rank (seconds m) ≤ rank (seconds n) := by
  have hwords : (m.toNat : ℚ) ≤ n.toNat := Nat.cast_le.mpr (UInt64.le_iff_toNat_le.mp h)
  have hvalues := (isRounded_toFloat m).mono (isRounded_toFloat n) hwords
  rw [rank_seconds, rank_seconds]
  apply nearestRank_mono
  · exact div_nonneg (isRounded_toFloat m).isMagnitude.value_nonneg value_thousand_pos.le
  · exact div_le_div_of_nonneg_right hvalues value_thousand_pos.le

theorem lt_of_seconds_lt {m n : UInt64} (h : seconds m < seconds n) : m < n := by
  rw [lt_iff_rank (not_isNaN_seconds m) (not_isNaN_seconds n)] at h
  by_contra hle
  have hmono := seconds_mono (UInt64.not_lt.mp hle)
  omega

/-- A millisecond is not rounded to nothing. -/
theorem rank_seconds_pos {ms : UInt64} (h : ms ≠ 0) : 0 < rank (seconds ms) := by
  have hone : 1 ≤ ms := by
    rw [UInt64.le_iff_toNat_le]
    exact Nat.pos_of_ne_zero fun h0 => h (UInt64.toNat.inj h0)
  have hsmallest : 0 < rank (seconds 1) := by decide +kernel
  exact hsmallest.trans_le (seconds_mono hone)

/-- A later end that is not seen in seconds is the same in seconds. -/
theorem seconds_eq_of_not_lt {m n : UInt64} (h : m ≤ n) (hlt : ¬ seconds m < seconds n) :
    seconds m = seconds n := by
  rw [lt_iff_rank (not_isNaN_seconds m) (not_isNaN_seconds n), not_lt] at hlt
  have hrank := le_antisymm (seconds_mono h) hlt
  by_cases hm : m = 0
  · -- without milliseconds the other end has none either
    have hn : n = 0 := by
      by_contra hn
      have hpos := rank_seconds_pos hn
      rw [← hrank, hm, show rank (seconds 0) = 0 by decide +kernel] at hpos
      exact absurd hpos (lt_irrefl 0)
    rw [hm, hn]
  · exact eq_of_rank_eq hrank (rank_seconds_pos hm).ne'

/-! ## §2 — one row more -/

/-- Is there an invocation in the interval of a row? -/
def Sample.IsActive (row : Sample) : Prop := 0 < row.invocations

instance (row : Sample) : Decidable row.IsActive :=
  inferInstanceAs (Decidable (0 < row.invocations))

/-- The end of the invocations of a row is a word. -/
def Sample.EndFits (row : Sample) : Prop := row.time.toNat + row.exec.toNat < 2 ^ 64

instance (row : Sample) : Decidable row.EndFits :=
  inferInstanceAs (Decidable (row.time.toNat + row.exec.toNat < 2 ^ 64))

theorem Sample.endSeconds_eq (row : Sample) : row.endSeconds = seconds (row.time + row.exec) := rfl

theorem Sample.EndFits.toNat_end {row : Sample} (h : row.EndFits) :
    (row.time + row.exec).toNat = row.time.toNat + row.exec.toNat := by
  rw [UInt64.toNat_add]
  exact Nat.mod_eq_of_lt h

/-- The latest end of the invocations of a trace, in milliseconds. -/
structure IsLatestEnd (trace : Trace) (ms : UInt64) : Prop where
  reached : ∃ row ∈ trace, row.IsActive ∧ row.time.toNat + row.exec.toNat = ms.toNat
  latest : ∀ row ∈ trace, row.IsActive → row.time.toNat + row.exec.toNat ≤ ms.toNat

/-- What a pass over the rows of a trace has found. -/
inductive EndsAt (trace : Trace) : Option Float → Prop where
  /-- There are no invocations. -/
  | never (h : ∀ row ∈ trace, ¬ row.IsActive) : EndsAt trace none
  | ends (ms : UInt64) (h : IsLatestEnd trace ms) : EndsAt trace (some (seconds ms))

section Row

variable {trace : Trace} {row : Sample} {latest : Option Float} {ms : UInt64}

theorem laterEnd_of_idle (h : ¬ row.IsActive) : laterEnd latest row = latest :=
  if_pos (UInt64.le_zero_iff.mp (UInt64.not_lt.mp h))

theorem laterEnd_of_active (h : row.IsActive) :
    laterEnd latest row = match latest with
      | none => some row.endSeconds
      | some e => if e < row.endSeconds then some row.endSeconds else some e :=
  if_neg (UInt64.pos_iff_ne_zero.mp h)

theorem IsLatestEnd.append (h : IsLatestEnd trace ms)
    (hrow : row.IsActive → row.time.toNat + row.exec.toNat ≤ ms.toNat) :
    IsLatestEnd (trace ++ [row]) ms where
  reached := by
    obtain ⟨r, hr, hend⟩ := h.reached
    exact ⟨r, List.mem_append_left _ hr, hend⟩
  latest := by
    rw [List.forall_mem_append, List.forall_mem_singleton]
    exact ⟨h.latest, hrow⟩

/-- The last row has the latest end if no other row ends later. -/
theorem isLatestEnd_append_singleton (hactive : row.IsActive) (hfits : row.EndFits)
    (h : ∀ r ∈ trace, r.IsActive →
      r.time.toNat + r.exec.toNat ≤ row.time.toNat + row.exec.toNat) :
    IsLatestEnd (trace ++ [row]) (row.time + row.exec) where
  reached := ⟨row, List.mem_append_right _ List.mem_cons_self, hactive, hfits.toNat_end.symm⟩
  latest := by
    rw [List.forall_mem_append, List.forall_mem_singleton, hfits.toNat_end]
    exact ⟨h, fun _ => le_rfl⟩

/-- **One row more.** -/
theorem EndsAt.step (h : EndsAt trace latest) (hfits : row.EndFits) :
    EndsAt (trace ++ [row]) (laterEnd latest row) := by
  by_cases hactive : row.IsActive
  · rw [laterEnd_of_active hactive]
    cases h with
    | never hidle =>
      refine .ends _ (isLatestEnd_append_singleton hactive hfits ?_)
      exact fun r hr hr' => absurd hr' (hidle r hr)
    | ends ms hms =>
      have hend := hfits.toNat_end
      dsimp only
      rw [row.endSeconds_eq]
      by_cases hlt : seconds ms < seconds (row.time + row.exec)
      · have hlater := UInt64.lt_iff_toNat_lt.mp (lt_of_seconds_lt hlt)
        rw [if_pos hlt]
        refine .ends _ (isLatestEnd_append_singleton hactive hfits ?_)
        intro r hr hr'
        have hle := hms.latest r hr hr'
        omega
      · rw [if_neg hlt]
        rcases Nat.le_total (row.time + row.exec).toNat ms.toNat with hle | hle
        · exact .ends ms (hms.append fun _ => hend ▸ hle)
        -- the row ends later, but not by a second that can be told apart
        · rw [seconds_eq_of_not_lt (UInt64.le_iff_toNat_le.mpr hle) hlt]
          refine .ends _ (isLatestEnd_append_singleton hactive hfits ?_)
          intro r hr hr'
          have hle' := hms.latest r hr hr'
          omega
  · rw [laterEnd_of_idle hactive]
    cases h with
    | never hidle =>
      refine .never ?_
      rw [List.forall_mem_append, List.forall_mem_singleton]
      exact ⟨hidle, hactive⟩
    | ends ms hms => exact .ends ms (hms.append fun h => absurd h hactive)

end Row

/-! ## §3 — all rows -/

section Trace

variable {trace : Trace}

/-- **A pass over the rows finds the latest end.** -/
theorem endsAt_simulationEnd (hfits : ∀ row ∈ trace, row.EndFits) :
    EndsAt trace (simulationEnd trace) := by
  induction trace using List.reverseRecOn with
  | nil => exact .never fun row hrow => absurd hrow List.not_mem_nil
  | append_singleton trace row ih =>
    rw [List.forall_mem_append, List.forall_mem_singleton] at hfits
    unfold simulationEnd
    rw [List.foldl_append]
    exact (ih hfits.1).step hfits.2

/-- What is found is found of the rows with invocations alone. -/
theorem EndsAt.eq_of_active {other : Trace} {latest latest' : Option Float}
    (h : EndsAt trace latest) (h' : EndsAt other latest')
    (hactive : ∀ row : Sample, row.IsActive → (row ∈ other ↔ row ∈ trace)) :
    latest' = latest := by
  cases h with
  | never hidle =>
    cases h' with
    | never => rfl
    | ends ms hms =>
      obtain ⟨row, hrow, hrow', -⟩ := hms.reached
      exact absurd hrow' (hidle row ((hactive row hrow').mp hrow))
  | ends ms hms =>
    obtain ⟨row, hrow, hrow', hend⟩ := hms.reached
    cases h' with
    | never hidle => exact absurd hrow' (hidle row ((hactive row hrow').mpr hrow))
    | ends ms' hms' =>
      obtain ⟨row', hlast, hlast', hend'⟩ := hms'.reached
      have hle := hms.latest row' ((hactive row' hlast').mp hlast) hlast'
      have hle' := hms'.latest row ((hactive row hrow').mpr hrow) hrow'
      obtain rfl : ms = ms' := UInt64.toNat.inj (by omega)
      rfl

end Trace

/-- **The end of a simulation is its latest end.** There is none without invocations.  Otherwise it
is the largest end of a row with invocations, rounded once to a double and once more as it is
divided, whatever the order of the rows; rows without invocations have no part in it. -/
theorem simulationEnd_latest {trace : Trace} (hfits : ∀ row ∈ trace, row.EndFits) :
    (simulationEnd trace = none ↔ ∀ row ∈ trace, ¬ row.IsActive) ∧
    ((∃ row ∈ trace, row.IsActive) → ∃ ms, IsLatestEnd trace ms) ∧
    (∀ ms, IsLatestEnd trace ms → simulationEnd trace = some (ms.toFloat / 1000.0)) ∧
    (∀ other : Trace, (∀ row ∈ other, row.EndFits) →
      (∀ row : Sample, row.IsActive → (row ∈ other ↔ row ∈ trace)) →
        simulationEnd other = simulationEnd trace) ∧
    ∀ other : Trace, other.Perm trace → simulationEnd other = simulationEnd trace := by
  have hends := endsAt_simulationEnd hfits
  have hsame : ∀ other : Trace, (∀ row ∈ other, row.EndFits) →
      (∀ row : Sample, row.IsActive → (row ∈ other ↔ row ∈ trace)) →
        simulationEnd other = simulationEnd trace :=
    fun other hother hactive => hends.eq_of_active (endsAt_simulationEnd hother) hactive
  refine ⟨?_, ?_, ?_, hsame, ?_⟩
  · generalize simulationEnd trace = latest at hends
    cases hends with
    | never hidle => exact iff_of_true rfl hidle
    | ends ms hms =>
      obtain ⟨row, hrow, hactive, -⟩ := hms.reached
      exact iff_of_false (Option.some_ne_none _) fun hidle => hidle row hrow hactive
  · rintro ⟨row, hrow, hactive⟩
    generalize simulationEnd trace = latest at hends
    cases hends with
    | never hidle => exact absurd hactive (hidle row hrow)
    | ends ms hms => exact ⟨ms, hms⟩
  · intro ms hms
    exact ((hends.eq_of_active (.ends ms hms)) fun _ _ => Iff.rfl).symm
  · intro other hperm
    refine hsame other (fun row hrow => hfits row (hperm.mem_iff.mp hrow)) ?_
    exact fun row _ => hperm.mem_iff

/-- Two ends that are one second when rounded, the later one first, and a later row without
invocations. -/
def closeEnds : Trace :=
  [⟨9007199254740992, 1, 1, 0, 0, 0.0, 0.0⟩, ⟨9007199254740992, 2, 0, 0, 0, 0.0, 0.0⟩,
    ⟨18446744073709551615, 0, 0, 0, 0, 0.0, 0.0⟩]

theorem simulationEnd_latest_close :
    (∀ row ∈ closeEnds, row.EndFits) ∧ IsLatestEnd closeEnds 9007199254740993 ∧
      simulationEnd closeEnds = some ((9007199254740993 : UInt64).toFloat / 1000.0) ∧
      simulationEnd closeEnds.reverse = simulationEnd closeEnds := by
  have hfits : ∀ row ∈ closeEnds, row.EndFits := by decide
  have hlatest : IsLatestEnd closeEnds 9007199254740993 :=
    ⟨⟨_, List.mem_cons_self, by decide, rfl⟩, by decide⟩
  obtain ⟨-, -, hend, -, hperm⟩ := simulationEnd_latest hfits
  exact ⟨hfits, hlatest, hend _ hlatest, hperm _ (List.reverse_perm _)⟩

end WorkloadSynth
