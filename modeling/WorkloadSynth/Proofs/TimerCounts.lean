import Mathlib
import WorkloadSynth.Proofs.Floor

/-!
# The counts of a timer

A count is read as a double, kept as a word, sampled as a double and written as a word.  A word does
not survive the way through a double in general, but the words that are read do: below `2 ^ 64` they
were doubles before, so nothing is rounded, and everything above is the largest word, which is
rounded up and cut down again (`toUInt64_sampled`).  Timers are not resampled, so their counts come
out of a trace as they were read (`assemble_timer_counts`).
-/

namespace WorkloadSynth

/-! ## §1 — whole doubles -/

namespace Double

open Float.Model.UnpackedFloat Float.Model.Format

/-- Only zeros are equal without being the same. -/
theorem unpack_eq_of_beq {x y : Float} {s : Sign} {m : Nat} {e : Int} {hm : 0 < m}
    (hx : x.toModel.unpack = .finite s m e hm) (h : (y == x) = true) :
    y.toModel.unpack = .finite s m e hm := by
  have hcompare : (y.toModel.unpack.compare x.toModel.unpack == some .eq) = true := h
  rw [hx, beq_iff_eq] at hcompare
  cases hy : y.toModel.unpack with
  | notANumber => rw [hy] at hcompare; cases hcompare
  | infinity s' => rw [hy] at hcompare; cases s' <;> cases s <;> cases hcompare
  | zero s' => rw [hy] at hcompare; cases s <;> cases hcompare
  | finite s' m' e' hm' =>
    rw [hy] at hcompare
    -- exponents are compared before mantissas, and both are equal
    cases s' <;> cases s
    all_goals simp [Float.Model.UnpackedFloat.compare, Ordering.then_eq_eq] at hcompare
    all_goals
      obtain ⟨rfl, rfl⟩ := hcompare
      rfl

/-- A whole number without a sign is a natural number. -/
theorem exists_nat_of_isWhole {x : Float} {m : Nat} {e : Int} {hm : 0 < m}
    (hx : x.toModel.unpack = .finite .positive m e hm) (h : isWhole x = true) :
    ∃ k : Nat, (m : ℚ) * 2 ^ e = k := by
  obtain ⟨-, htruncate⟩ := Bool.and_eq_true_iff.mp h
  have hnonNeg : NonNeg x := by
    unfold NonNeg
    rw [hx]
    rfl
  have hsame := unpack_eq_of_beq hx htruncate
  rcases hnonNeg.truncate.2 with hinf | ⟨k, hk⟩
  · have hmodel : (truncate x).toModel.unpack.isInf = true := hinf
    rw [hsame] at hmodel
    cases hmodel
  · unfold value at hk
    rw [hsame] at hk
    exact ⟨k, (congrArg (· * (2 : ℚ) ^ e) (Int.cast_natCast m)).symm.trans hk⟩

/-- A natural number with bits behind its point has none there. -/
theorem eq_mul_of_nat {m k : Nat} {e : Int} (he : e ≤ 0) (h : (m : ℚ) * 2 ^ e = k) :
    m = k * 2 ^ (-e).toNat := by
  have hpow : (2 : ℚ) ^ e * 2 ^ (-e).toNat = 1 := by
    rw [← zpow_natCast, ← zpow_add₀ two_ne_zero, show e + ((-e).toNat : Int) = 0 by omega,
      zpow_zero]
  have : (m : ℚ) = k * 2 ^ (-e).toNat := by
    rw [← h, mul_assoc, hpow, mul_one]
  exact_mod_cast this

/-- What stands behind the point is dropped. -/
theorem roundToInt_eq_floor (s : Float.Model.UnpackedFloat.Sign) (m : Nat) (e : Int) :
    roundToInt s m e = s.apply (⌊(m : ℚ) * 2 ^ e⌋₊ : Nat) := by
  unfold roundToInt decreaseExponent shiftToExponent
  show s.apply ((ExtendedMantissa.ofMantissaAndAccuracy (m <<< (e - 0).toNat) .exact >>>
    (0 - (e - ((e - 0).toNat : Int))).toNat).mantissa : Nat) = _
  rw [mantissa_shiftRight, mantissa_ofMantissaAndAccuracy, Nat.shiftLeft_eq]
  congr 2
  rcases le_or_gt 0 e with he | he
  -- the mantissa is shifted to the left or to the right, never both
  · have hpow : (m : ℚ) * 2 ^ e = (m * 2 ^ e.toNat : Nat) := by
      rw [← Int.toNat_of_nonneg he, zpow_natCast, Int.toNat_natCast]
      push_cast
      rfl
    rw [hpow, Nat.floor_natCast, show (e - 0).toNat = e.toNat by omega,
      show (0 - (e - (e.toNat : Int))).toNat = 0 by omega, pow_zero, Nat.div_one]
  · have hpow : (m : ℚ) * 2 ^ e = m / (2 ^ (-e).toNat : Nat) := by
      rw [← neg_neg e, zpow_neg, neg_neg, ← Int.toNat_of_nonneg (neg_nonneg.mpr he.le),
        zpow_natCast, Int.toNat_natCast, div_eq_mul_inv]
      push_cast
      rfl
    rw [hpow, Nat.floor_div_eq_div, show (e - 0).toNat = 0 by omega,
      show (0 - (e - ((0 : Nat) : Int))).toNat = (-e).toNat by omega, pow_zero, mul_one]

/-- Nothing is lost of a natural number. -/
theorem roundToInt_eq {m k : Nat} {e : Int} (h : (m : ℚ) * 2 ^ e = k) :
    roundToInt .positive m e = k := by
  rw [roundToInt_eq_floor, h, Nat.floor_natCast]
  rfl

/-- A finite double is cut to the words behind its fraction, a negative one to zero. -/
theorem toUInt64_eq_floor {x : Float} (hfinite : x.isFinite = true) :
    x.toUInt64 = .ofNatClamp ⌊value x⌋₊ := by
  have hmodel : x.toModel.unpack.isFinite = true := hfinite
  show x.toModel.unpack.toUInt64 = _
  unfold value
  generalize x.toModel.unpack = f at hmodel ⊢
  cases f with
  | notANumber => cases hmodel
  | infinity s => cases hmodel
  | zero s =>
    dsimp only
    rw [Nat.floor_zero]
    rfl
  | finite s m e hm =>
    show UInt64.ofNatClamp (roundToInt s m e).toNat = .ofNatClamp ⌊((s.apply m : Int) : ℚ) * 2 ^ e⌋₊
    rw [roundToInt_eq_floor]
    congr 1
    cases s with
    | positive =>
      show Int.toNat (⌊(m : ℚ) * 2 ^ e⌋₊ : Nat) = ⌊((m : Int) : ℚ) * 2 ^ e⌋₊
      rw [Int.toNat_natCast, Int.cast_natCast]
    | negative =>
      have hnonpos : ((-m : Int) : ℚ) * 2 ^ e ≤ 0 := by
        rw [Int.cast_neg, Int.cast_natCast, neg_mul, neg_nonpos]
        exact (mul_pos (Nat.cast_pos.mpr hm) (two_zpow_pos e)).le
      show Int.toNat (-(⌊(m : ℚ) * 2 ^ e⌋₊ : Nat)) = ⌊((-m : Int) : ℚ) * 2 ^ e⌋₊
      rw [Nat.floor_of_nonpos hnonpos]
      omega

/-- A natural number is cut to the words. -/
theorem toUInt64_of_nat {x : Float} {m k : Nat} {e : Int} {hm : 0 < m}
    (hx : x.toModel.unpack = .finite .positive m e hm) (h : (m : ℚ) * 2 ^ e = k) :
    x.toUInt64 = UInt64.ofNatClamp k := by
  show x.toModel.unpack.toUInt64 = _
  rw [hx]
  show UInt64.ofNatClamp (roundToInt .positive m e).toNat = _
  rw [roundToInt_eq h, Int.toNat_natCast]

/-- Below `2 ^ 64` the word has become the double that it was cut from. -/
theorem toFloat_toUInt64_of_lt {x : Float} {m k : Nat} {e : Int} {hm : 0 < m}
    (hx : x.toModel.unpack = .finite .positive m e hm) (h : (m : ℚ) * 2 ^ e = k)
    (hk : k < UInt64.size) : x.toUInt64.toFloat = x := by
  have hword : x.toUInt64.toNat = k := by
    rw [toUInt64_of_nat hx h, UInt64.ofNatClamp_eq_ofNat k hk, UInt64.toNat_ofNat_of_lt' hk]
  have hpos : (0 : ℚ) < k := by
    rw [← h]
    exact mul_pos (Nat.cast_pos.mpr hm) (two_zpow_pos e)
  have hne : x.toUInt64 ≠ 0 := by
    intro h0
    rw [h0] at hword
    rw [← hword] at hpos
    exact absurd hpos (lt_irrefl _)
  apply Float.toBits_inj.mp
  apply UInt64.toNat.inj
  rw [toNat_toBits_toFloat hne, toNat_toBits_of_unpack hx, h, hword]

end Double

open Double (NonNeg)

theorem nonNeg_toFloat (n : UInt64) : NonNeg n.toFloat := by
  by_cases hn : n = 0
  · subst hn
    exact (rfl : Float.Model.UnpackedFloat.Sign.positive = .positive)
  · obtain ⟨m, e, hm, hu⟩ := Double.unpack_toFloat hn
    unfold NonNeg
    rw [hu]
    rfl

/-- **The words that are read survive.** A word that a whole double is cut to becomes a double, is
floored, and is cut to the same word. -/
theorem toUInt64_sampled {x : Float} (hx : 0.0 ≤ x) (hwhole : Double.isWhole x = true) :
    (floorAtZero x.toUInt64.toFloat).toUInt64 = x.toUInt64 := by
  rw [floorAtZero_of_nonNeg (nonNeg_toFloat _)]
  rw [Double.le_iff] at hx
  cases hu : x.toModel.unpack with
  | notANumber => rw [hu] at hx; cases hx
  | infinity s =>
    have hfinite : x.toModel.unpack.isFinite = true := (Bool.and_eq_true_iff.mp hwhole).1
    rw [hu] at hfinite
    cases hfinite
  | zero s =>
    have hword : x.toUInt64 = 0 := by
      show x.toModel.unpack.toUInt64 = 0
      rw [hu]
      rfl
    rw [hword]
    rfl
  | finite s m e hm =>
    cases s with
    | negative => rw [hu] at hx; cases hx
    | positive =>
      obtain ⟨k, hk⟩ := Double.exists_nat_of_isWhole hu hwhole
      by_cases hsmall : k < UInt64.size
      · rw [Double.toFloat_toUInt64_of_lt hu hk hsmall]
      · -- the largest word is rounded up to `2 ^ 64`
        have hmax : x.toUInt64 = 18446744073709551615 := by
          rw [Double.toUInt64_of_nat hu hk]
          exact dif_neg hsmall
        rw [hmax]
        decide +kernel

/-! ## §2 — rows of timers -/

/-- **Counts that were read survive sampling.** -/
theorem map_toUInt64_samples {trailing : TrailingColumns} {fields : Array String} {o : Observation}
    (h : Observation.ofFields trailing fields = .ok o) :
    (o.samples.map floorAtZero).map Float.toUInt64 = o.invocations := by
  obtain ⟨-, hcounts, -⟩ := Observation.of_ofFields_eq_ok h
  unfold Observation.samples
  rw [List.map_map, List.map_map]
  refine (List.map_congr_left ?_).trans (List.map_id _)
  intro n hn
  obtain ⟨i, -, hread⟩ := exists_of_mem_forall₂ hcounts hn
  obtain ⟨x, hx, hwhole, rfl⟩ := Observation.of_readCount_eq_ok hread
  exact toUInt64_sampled hx hwhole

/-! ## §3 — traces of timers -/

theorem dayOf_map {α β : Type} (f : α → β) (column : List α) (d : Nat) :
    dayOf (column.map f) d = (dayOf column d).map f := by
  simp [dayOf]

/-- The counts of the rows are the first column, cut to words. -/
theorem map_invocations_rowsOf {times : List UInt64} {c : Columns} (h : c.OfLength times.length)
    (provisioning : Provisioning) :
    (rowsOf times c provisioning).map (·.invocations) = c.invocations.map Float.toUInt64 := by
  have hlen := h.invocations
  have hlen' := h.execTimes
  have hlen'' := h.memories
  have hvalues : (times.zip (c.invocations.zip (c.execTimes.zip c.memories))).map (·.2.1) =
      c.invocations := by
    rw [← Function.comp_def Prod.fst Prod.snd, ← List.map_map, List.map_snd_zip, List.map_fst_zip]
    · simp only [List.length_zip]
      omega
    · simp only [List.length_zip]
      omega
  rw [rowsOf, List.map_map, ← congrArg (List.map Float.toUInt64) hvalues, List.map_map]
  rfl

section Trace

variable {σ : Type} [RandomSource σ] {apps : AppTable}

/-- The first column of the day of a timer is what was observed. -/
theorem day_invocations_of_timer {slots : List (Option Observation)} {s : σ} {t : Stitched}
    (ht : t.OfDays apps slots s) {d : Nat} {o : Observation} (hslot : slots[d]? = some (some o))
    (hknows : apps.Knows o.app) (htimer : o.trigger = .timer) :
    dayOf t.columns.invocations d = o.samples.map floorAtZero := by
  obtain ⟨count, -, hcount⟩ := hknows.functionCount_eq
  have hday := congrArg Columns.invocations (ht.observed d o count hslot hcount)
  refine hday.trans ?_
  show (synthesizeDay o count _).1.invocations = _
  rw [synthesizeDay_invocations,
    Observation.invocationSource_of_timer (Trigger.isTimer_iff.mpr htimer)]
  rfl

/-- **Timers keep their counts.** Whatever accepted row of a timer stands on a day of a trace, and
however its counts are written, it is not what the trace could fail for, and the rows of that day
have exactly the counts that were read. -/
theorem assemble_timer_counts {line : Nat} {trailing : TrailingColumns} {fields : List String}
    {o : Observation} (hrow : Observation.ofRow line trailing fields = .ok o)
    (hname : fields[3]? = some "timer") (hknows : apps.Knows o.app)
    {slots : List (Option Observation)} {d : Nat} (hslot : slots[d]? = some (some o)) (s : σ)
    (function : String) (times : List UInt64) (provisioning : Provisioning) :
    o.invocations.length = minutesPerDay ∧
    ((∀ o', some o' ∈ slots → o' = o ∨ o'.Stitchable apps) →
      times.length = slots.length * minutesPerDay →
      ∃ t trace, (stitch apps slots s).1 = .ok t ∧
        assemble function times t.columns provisioning = .ok trace) ∧
    ∀ t trace, (stitch apps slots s).1 = .ok t →
      assemble function times t.columns provisioning = .ok trace →
      (dayOf trace d).map (·.invocations) = o.invocations := by
  have hfields := Observation.ofRow_eq_ok_iff.mp hrow
  have hlen := Observation.invocations_length_of_ofRow hrow
  have htimer : o.trigger = .timer := by
    obtain ⟨htrigger, -⟩ := Observation.of_ofFields_eq_ok hfields
    have hfield : Observation.field fields.toArray 3 = "timer" := by
      rw [Observation.field_toArray, hname]
      rfl
    rw [htrigger, hfield]
    rfl
  refine ⟨hlen, ?_, ?_⟩
  · intro hothers hsize
    have hall : ∀ o', some o' ∈ slots → o'.Stitchable apps := by
      intro o' ho'
      rcases hothers o' ho' with rfl | hs
      · exact ⟨hknows, fun _ => hlen⟩
      · exact hs
    have hfits := (Stitched.ofDays_segmentsFrom hall s).length
    rw [← hsize] at hfits
    exact ⟨_, _, congrArg Prod.fst (stitch_of_stitchable hall s),
      assemble_of_length hfits provisioning⟩
  · intro t trace hst htrace
    rcases stitch_cases apps slots s with ⟨hall, hok⟩ | ⟨k, e, -, herr⟩
    · rw [hok] at hst
      obtain rfl := Except.ok.inj hst
      have hdays := Stitched.ofDays_segmentsFrom hall s
      generalize Stitched.mk (segmentsFrom apps slots s) = t at hdays htrace
      by_cases hfits : t.columns.OfLength times.length
      · rw [assemble_of_length hfits] at htrace
        obtain rfl := Except.ok.inj htrace
        rw [← dayOf_map, map_invocations_rowsOf hfits, dayOf_map,
          day_invocations_of_timer hdays hslot hknows htimer, map_toUInt64_samples hfields]
      · rw [assemble_of_not_length hfits] at htrace
        cases htrace
    · rw [herr] at hst
      cases hst

end Trace

/-- A count beyond the words is read as the largest word. -/
theorem Observation.readCount_saturated {fields : Array String} {column : Nat}
    (h : field fields column = "1e30") : readCount fields column = .ok 18446744073709551615 := by
  have htrim : trim "1e30".toList = ['1', 'e', '3', '0'] := by decide +kernel
  have hread : Literal.read (trim "1e30".toList) = .ok (.finite false ⟨1, 30⟩) := by
    rw [htrim]
    rfl
  exact readCount_of_text h (by rw [htrim]; rfl) hread (by decide +kernel) (by decide +kernel)

/-- A timer that saturates in every minute of its second day. -/
theorem assemble_timer_counts_saturated :
    let o := plainObservation "a" "f" 18446744073709551615 1 "f"
    Observation.ofRow 2 ⟨none, none⟩ (plainFields "a" "f" "1e30" []) = .ok o ∧
      (plainFields "a" "f" "1e30" [])[3]? = some "timer" ∧ idleTable.Knows o.app ∧
      ∃ t trace, (stitch idleTable [none, some o] (WordCycle.ofList [1])).1 = .ok t ∧
        assemble "f" (minuteGrid (2 * minutesPerDay)) t.columns .standard = .ok trace ∧
        (dayOf trace 1).map (·.invocations) =
          List.replicate minutesPerDay 18446744073709551615 := by
  intro o
  have hrow : Observation.ofRow 2 ⟨none, none⟩ (plainFields "a" "f" "1e30" []) = .ok o :=
    Observation.ofRow_eq_ok_iff.mpr (Observation.ofFields_plainFields "a" "f" []
      (fun _ _ h => Observation.readCount_saturated h) rfl)
  have hname : (plainFields "a" "f" "1e30" [])[3]? = some "timer" := rfl
  have hslot : [none, some o][1]? = some (some o) := rfl
  obtain ⟨-, hexists, hcounts⟩ := assemble_timer_counts hrow hname idleTable_knows hslot
    (WordCycle.ofList [1]) "f" (minuteGrid (2 * minutesPerDay)) .standard
  have honly : ∀ o', some o' ∈ [none, some o] → o' = o ∨ o'.Stitchable idleTable := by
    intro o' ho'
    simp only [List.mem_cons, reduceCtorEq, Option.some.injEq, List.not_mem_nil, or_false,
      false_or] at ho'
    exact .inl ho'
  obtain ⟨t, trace, hst, htrace⟩ := hexists honly (minuteGrid_length _)
  exact ⟨hrow, hname, idleTable_knows, t, trace, hst, htrace, hcounts t trace hst htrace⟩

end WorkloadSynth
