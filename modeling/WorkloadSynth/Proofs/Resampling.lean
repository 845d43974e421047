import WorkloadSynth.Proofs.Inverse
import WorkloadSynth.Proofs.OutputShape

/-!
# Draws by inversion

A draw from an empirical distribution makes a number below one of a word (`unitInterval_lt_one`) and
inverts it.  The shares do not go down and the last of them is one, so the search for the number
ends at a step, whatever the samples are (`IsDistributionOf.endsAtStep`).  Columns and samples are
drawn in two ways that are the same: the values can be put at zero while they are drawn or
afterwards, since the source only sees that a word is taken (`draws_by_inversion`).
-/

namespace WorkloadSynth

/-! ## §1 — the number of a word -/

namespace Double

theorem upperBits_lt (w : UInt64) : (w >>> 12).toNat < 2 ^ 52 := by
  have hw := w.toNat_lt
  rw [UInt64.toNat_shiftRight, Nat.shiftRight_eq_div_pow]
  exact Nat.div_lt_of_lt_mul hw

theorem unitFraction_lt_one (w : UInt64) : ((w >>> 12).toNat : ℚ) * 2 ^ (-52 : Int) < 1 := by
  have hbits : ((w >>> 12).toNat : ℚ) < 2 ^ 52 := by exact_mod_cast upperBits_lt w
  rw [zpow_neg, ← div_eq_mul_inv, div_lt_one (by positivity)]
  exact_mod_cast hbits

theorem isRounded_unitInterval (w : UInt64) :
    IsRounded (unitInterval w) ((w >>> 12).toNat * 2 ^ (-52 : Int)) := by
  have hbits := upperBits_lt w
  have hword := isRounded_toFloat (w >>> 12)
  have hscale : Float.ofNat (2 ^ 52) = 4503599627370496.0 := by decide +kernel
  have hrank := rank_div hword.isMagnitude (isMagnitude_ofNat (n := 2 ^ 52) (by decide))
    (value_ofNat_pos (by decide) (by decide))
  rw [hword.value_natCast (by omega), value_ofNat (by decide), hscale] at hrank
  have hquotient : ((w >>> 12).toNat : ℚ) / (2 ^ 52 : Nat) = (w >>> 12).toNat * 2 ^ (-52 : Int) := by
    rw [zpow_neg, div_eq_mul_inv]
    norm_num
  refine isRounded_of_le (hrank.trans (congrArg nearestRank hquotient)) (by positivity)
    (isRounded_ofNat (n := 1) (by decide)) ?_
  exact_mod_cast (unitFraction_lt_one w).le

/-- **The number of a word is not rounded.** -/
theorem value_unitInterval (w : UInt64) :
    value (unitInterval w) = (w >>> 12).toNat * 2 ^ (-52 : Int) :=
  (isRounded_unitInterval w).value_eq_self ((upperBits_lt w).le.trans (by decide)) (by decide)

theorem unitInterval_lt_one (w : UInt64) : unitInterval w < 1.0 := by
  have hone : Float.ofNat 1 = 1.0 := by decide +kernel
  have hvalue := value_ofNat (n := 1) (by decide)
  rw [← hone, lt_iff_value (isRounded_unitInterval w).isMagnitude (isMagnitude_ofNat (by decide)),
    value_unitInterval, hvalue, Nat.cast_one]
  exact unitFraction_lt_one w

end Double

/-! ## §2 — the search for the number -/

namespace Ecdf

section Search

variable {samples : List Float} {e : Ecdf} {p : Float}

/-- The inverse ends its search at a step, not behind the last one. -/
structure EndsAtStep (e : Ecdf) (p : Float) : Prop where
  /-- A binary search over the shares can stop, ... -/
  stops : ∃ i, IsPartitionPoint (· < p) e.cumulative i
  /-- ... wherever it does, there is a step, ... -/
  inside : ∀ i, IsPartitionPoint (· < p) e.cumulative i → i < e.values.length
  /-- ... and the inverse is what there is to read there. -/
  reads : ∀ i, IsPartitionPoint (· < p) e.cumulative i → e.inverseAt i p = some (e.inverse p)

theorem IsDistributionOf.searchable (h : IsDistributionOf samples e)
    (hlen : samples.length ≤ 2 ^ 64) : e.Searchable := by
  have hmem : ∀ s ∈ e.steps, s.value ∈ samples := fun s hs => h.mem _ (List.mem_map_of_mem hs)
  refine ⟨fun s hs => ?_, (List.pairwise_map.mp h.increasing).imp_of_mem fun {s t} hs ht hlt => ?_⟩
  · rw [h.cumulative_eq hs]
    exact (Double.isRounded_wordQuotient List.countP_le_length hlen
      (List.length_pos_of_mem (hmem s hs))).isMagnitude
  · rw [h.cumulative_eq hs, h.cumulative_eq ht]
    exact Double.quotient_le (countUpTo_lt (hmem t ht) hlt).le List.countP_le_length hlen
      (List.length_pos_of_mem (hmem t ht))

/-- **Numbers below one are below the last share.** -/
theorem IsDistributionOf.endsAtStep (h : IsDistributionOf samples e)
    (hnumber : ∀ x ∈ samples, x.isNaN = false) (hlen : samples.length ≤ 2 ^ 64) (hp : p < 1.0) :
    e.EndsAtStep p := by
  have hsearchable := h.searchable hlen
  obtain ⟨hnan, hone⟩ := Double.not_isNaN_of_lt hp
  have hlast : ¬ 1.0 < p := (Double.not_lt_iff hone hnan).mpr (Double.le_of_lt hp)
  refine ⟨hsearchable.exists_isPartitionPoint p, fun i hi => ?_, fun i hi => ?_⟩
  · have hlt := hi.lt_length (h.getLast?_cumulative hnumber hlen) hlast
    simpa [Ecdf.cumulative, Ecdf.values] using hlt
  · exact (hsearchable.answer hnan hi.of_map).inverseAt_eq hsearchable

end Search

/-! ## §3 — two ways of drawing -/

section Draws

variable {σ : Type} [RandomSource σ]

/-- What `n` draws from a distribution are, and where they leave the source. -/
structure AreDraws (e : Ecdf) (n : Nat) (s : σ) (drawn : List Float × σ) : Prop where
  length : drawn.1.length = n
  /-- Every draw takes one word, ... -/
  state : drawn.2 = afterWord^[n] s
  /-- ... and gives the inverse at the number of the word, put at zero if it is below, ... -/
  value : ∀ i < n, drawn.1[i]? = some (floorAtZero (e.inverse (unitInterval (wordAt i s))))
  /-- ... which is a number without a sign. -/
  nonNeg : ∀ x ∈ drawn.1, Double.NonNeg x

variable (e : Ecdf) (n : Nat) (s : σ)

/-- **Columns are samples.** -/
theorem generate_empirical : (ColumnSource.empirical e).generate n s = sampleEmpirical e n s :=
  (drawMany_map e.draw floorAtZero n s).symm

theorem areDraws_sampleEmpirical : AreDraws e n s (sampleEmpirical e n s) where
  length := drawMany_length _ n s
  state := drawMany_state (fun _ => rfl) n s
  value i hi := drawMany_getElem? (fun _ => rfl) hi s
  nonNeg x hx := by
    rw [← generate_empirical] at hx
    exact ColumnSource.nonNeg_of_mem_generate hx

end Draws

/-- **Draws by inversion.** Columns and samples of a distribution are the same draws, one word each,
and can be made in any number of parts.  The number of a word is exact and below one, which is the
last share, so the inverse never goes beyond its last step; as for the last share, the number of
samples has to be a word. -/
theorem draws_by_inversion {samples : List Float} {e : Ecdf} (he : ofSamples samples = some e)
    (hlen : samples.length < UInt64.size) {σ : Type} [RandomSource σ] (s : σ) :
    (∀ n, (ColumnSource.empirical e).generate n s = sampleEmpirical e n s ∧
      AreDraws e n s (sampleEmpirical e n s)) ∧
    (∀ m n, sampleEmpirical e (m + n) s =
      ((sampleEmpirical e m s).1 ++ (sampleEmpirical e n (sampleEmpirical e m s).2).1,
        (sampleEmpirical e n (sampleEmpirical e m s).2).2)) ∧
    ∀ w, Double.value (unitInterval w) = (w >>> 12).toNat / 2 ^ 52 ∧ unitInterval w < 1.0 ∧
      e.EndsAtStep (unitInterval w) := by
  refine ⟨fun n => ⟨generate_empirical e n s, areDraws_sampleEmpirical e n s⟩,
    fun m n => drawMany_add m n s, fun w => ⟨?_, Double.unitInterval_lt_one w, ?_⟩⟩
  · rw [Double.value_unitInterval, zpow_neg, div_eq_mul_inv]
    norm_cast
  · have hfinite := (List.length_filter_le Float.isFinite samples).trans hlen.le
    exact (isDistributionOf_ofSamples he).endsAtStep not_isNaN_of_mem_filter hfinite
      (Double.unitInterval_lt_one w)

/-- The least and the greatest number of a word.  The least is inverted to a zero with a sign, which
the floor takes away, and the greatest to a value between the last two steps. -/
theorem draws_by_inversion_mixed :
    ∃ e, ofSamples mixedSamples = some e ∧ mixedSamples.length < UInt64.size ∧
      (ColumnSource.empirical e).generate 2 (WordCycle.ofList [0, 18446744073709551615]) =
        sampleEmpirical e 2 (WordCycle.ofList [0, 18446744073709551615]) ∧
      AreDraws e 2 (WordCycle.ofList [0, 18446744073709551615])
        (sampleEmpirical e 2 (WordCycle.ofList [0, 18446744073709551615])) ∧
      (sampleEmpirical e 2 (WordCycle.ofList [0, 18446744073709551615])).1 =
        [0.0, 4.999999999999998] ∧
      e.EndsAtStep (unitInterval 18446744073709551615) := by
  have hlen : mixedSamples.length < UInt64.size := by decide
  obtain ⟨hdraws, -, hwords⟩ := draws_by_inversion ofSamples_mixedSamples hlen
    (WordCycle.ofList [0, 18446744073709551615])
  obtain ⟨hsame, hare⟩ := hdraws 2
  exact ⟨_, ofSamples_mixedSamples, hlen, hsame, hare, by decide +kernel,
    (hwords 18446744073709551615).2.2⟩

end Ecdf

end WorkloadSynth
