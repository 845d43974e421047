import WorkloadSynth.Proofs.Double

/-!
# Rounding to the nearest double

The arithmetic of doubles works on a whole number with two bits about what it leaves out.  These
three are a function of the rational number that is meant (`extended`), and shifting them right is
dividing it by two.  So rounding depends on the rational number alone: the pattern of the double
nearest to `q` is `nearestBits q`, the place of its unit followed by the number of units.
-/

namespace WorkloadSynth.Double

open Float.Model.UnpackedFloat Float.Model.Format

/-! ## §1 — a rational number with two bits -/

/-- The whole part of a rational number, with two bits about the rest. -/
def extended (y : ℚ) : ExtendedMantissa where
  mantissa := ⌊y⌋₊
  roundBit := decide (⌊y⌋₊ + 1 / 2 ≤ y)
  stickyBit := decide (y ≠ ⌊y⌋₊ ∧ y ≠ ⌊y⌋₊ + 1 / 2)

/-- What the three parts have to say about a number determines them. -/
theorem eq_extended {em : ExtendedMantissa} {y : ℚ} (hle : (em.mantissa : ℚ) ≤ y)
    (hlt : y < em.mantissa + 1) (hround : em.roundBit = true ↔ em.mantissa + 1 / 2 ≤ y)
    (hsticky : em.stickyBit = true ↔ y ≠ em.mantissa ∧ y ≠ em.mantissa + 1 / 2) :
    em = extended y := by
  have hy : 0 ≤ y := le_trans (Nat.cast_nonneg _) hle
  have hfloor : ⌊y⌋₊ = em.mantissa := (Nat.floor_eq_iff hy).mpr ⟨hle, hlt⟩
  obtain ⟨m, r, s⟩ := em
  simp only [extended, ExtendedMantissa.mk.injEq]
  refine ⟨hfloor.symm, ?_, ?_⟩
  · rw [hfloor, Bool.eq_iff_iff, hround, decide_eq_true_iff]
  · rw [hfloor, Bool.eq_iff_iff, hsticky, decide_eq_true_iff]

theorem extended_natCast (n : Nat) :
    ExtendedMantissa.ofMantissaAndAccuracy n .exact = extended n := by
  apply eq_extended
  · exact le_refl (n : ℚ)
  · exact lt_add_one (n : ℚ)
  · simp [ExtendedMantissa.ofMantissaAndAccuracy]
  · simp [ExtendedMantissa.ofMantissaAndAccuracy]

section Fraction

variable {m r b : Nat}

/-- The first bit says whether a fraction is at least one half. -/
theorem roundBit_accuracyOfFraction (hb : 0 < b) :
    (ExtendedMantissa.ofMantissaAndAccuracy m (accuracyOfFraction r b)).roundBit = true ↔
      b ≤ 2 * r := by
  unfold accuracyOfFraction
  by_cases hr : r = 0
  · rw [if_pos hr]
    simp [ExtendedMantissa.ofMantissaAndAccuracy]
    omega
  · rw [if_neg hr]
    rcases lt_trichotomy (2 * r) b with hlt | heq | hgt
    · rw [Nat.compare_eq_lt.mpr hlt]
      simp [ExtendedMantissa.ofMantissaAndAccuracy]
      omega
    · rw [Nat.compare_eq_eq.mpr heq]
      simp [ExtendedMantissa.ofMantissaAndAccuracy, heq]
    · rw [Nat.compare_eq_gt.mpr hgt]
      simp [ExtendedMantissa.ofMantissaAndAccuracy]
      omega

/-- The second bit says whether a fraction is neither zero nor one half. -/
theorem stickyBit_accuracyOfFraction :
    (ExtendedMantissa.ofMantissaAndAccuracy m (accuracyOfFraction r b)).stickyBit = true ↔
      r ≠ 0 ∧ 2 * r ≠ b := by
  unfold accuracyOfFraction
  by_cases hr : r = 0
  · rw [if_pos hr]
    simp [ExtendedMantissa.ofMantissaAndAccuracy, hr]
  · rw [if_neg hr]
    rcases lt_trichotomy (2 * r) b with hlt | heq | hgt
    · rw [Nat.compare_eq_lt.mpr hlt]
      simp [ExtendedMantissa.ofMantissaAndAccuracy, hr]
      omega
    · rw [Nat.compare_eq_eq.mpr heq]
      simp [ExtendedMantissa.ofMantissaAndAccuracy, heq]
    · rw [Nat.compare_eq_gt.mpr hgt]
      simp [ExtendedMantissa.ofMantissaAndAccuracy, hr]
      omega

theorem half_le_div_iff (hb : 0 < b) : (1 : ℚ) / 2 ≤ r / b ↔ b ≤ 2 * r := by
  rw [div_le_div_iff₀ two_pos (Nat.cast_pos.mpr hb), one_mul, mul_comm]
  exact_mod_cast Iff.rfl

theorem div_eq_half_iff (hb : 0 < b) : (r : ℚ) / b = 1 / 2 ↔ 2 * r = b := by
  rw [div_eq_div_iff (Nat.cast_pos.mpr hb).ne' two_ne_zero, one_mul, mul_comm]
  exact_mod_cast Iff.rfl

end Fraction

/-- A quotient is its whole part and a fraction. -/
theorem div_eq_add_mod_div (a : Nat) {b : Nat} (hb : 0 < b) :
    (a : ℚ) / b = (a / b : Nat) + (a % b : Nat) / b := by
  have hbq : (b : ℚ) ≠ 0 := (Nat.cast_pos.mpr hb).ne'
  rw [eq_comm, ← mul_left_inj' hbq, add_mul, div_mul_cancel₀ _ hbq, div_mul_cancel₀ _ hbq]
  exact_mod_cast Nat.div_add_mod' a b

/-- A quotient is described by the whole quotient and the remainder. -/
theorem extended_div (a : Nat) {b : Nat} (hb : 0 < b) :
    ExtendedMantissa.ofMantissaAndAccuracy (a / b) (accuracyOfFraction (a % b) b) =
      extended (a / b) := by
  have hbq : (0 : ℚ) < b := Nat.cast_pos.mpr hb
  have hone : ((a % b : Nat) : ℚ) / b < 1 :=
    (div_lt_one hbq).mpr (Nat.cast_lt.mpr (Nat.mod_lt a hb))
  have hnonneg : (0 : ℚ) ≤ (a % b : Nat) / b := by positivity
  have hzero : ((a % b : Nat) : ℚ) / b = 0 ↔ a % b = 0 := by
    rw [div_eq_zero_iff, or_iff_left hbq.ne', Nat.cast_eq_zero]
  apply eq_extended
  · rw [mantissa_ofMantissaAndAccuracy, div_eq_add_mod_div a hb]
    linarith
  · rw [mantissa_ofMantissaAndAccuracy, div_eq_add_mod_div a hb]
    linarith
  · rw [mantissa_ofMantissaAndAccuracy, div_eq_add_mod_div a hb, add_le_add_iff_left,
      half_le_div_iff hb]
    exact roundBit_accuracyOfFraction hb
  · rw [mantissa_ofMantissaAndAccuracy, div_eq_add_mod_div a hb, Ne, Ne, add_eq_left,
      add_left_cancel_iff, hzero, div_eq_half_iff hb]
    exact stickyBit_accuracyOfFraction

section Shift

variable {y : ℚ}

/-- The two bits together say whether there is a rest at all. -/
theorem bits_extended (hy : 0 ≤ y) :
    ((extended y).roundBit || (extended y).stickyBit) = true ↔ y ≠ ⌊y⌋₊ := by
  have hle := Nat.floor_le hy
  simp only [extended, Bool.or_eq_true, decide_eq_true_eq]
  constructor
  · rintro (h | h) heq
    · linarith
    · exact h.1 heq
  · intro hne
    by_cases hhalf : y = ⌊y⌋₊ + 1 / 2
    · exact .inl hhalf.ge
    · exact .inr ⟨hne, hhalf⟩

/-- Shifting is halving. -/
theorem shiftRightOne_extended (hy : 0 ≤ y) :
    (extended y).shiftRightOne = extended (y / 2) := by
  have hle := Nat.floor_le hy
  have hlt := Nat.lt_floor_add_one y
  have hbits := bits_extended hy
  apply eq_extended
  · show ((⌊y⌋₊ / 2 : Nat) : ℚ) ≤ y / 2
    have hdiv : ((⌊y⌋₊ / 2 : Nat) : ℚ) ≤ ⌊y⌋₊ / 2 := Nat.cast_div_le
    linarith
  · show y / 2 < ((⌊y⌋₊ / 2 : Nat) : ℚ) + 1
    have hdiv : ⌊y⌋₊ + 1 ≤ 2 * (⌊y⌋₊ / 2 + 1) := by omega
    have hdiv' : ((⌊y⌋₊ : Nat) : ℚ) + 1 ≤ 2 * ((⌊y⌋₊ / 2 : Nat) + 1) := by exact_mod_cast hdiv
    linarith
  -- the bit that is shifted out is the new first bit
  · show (⌊y⌋₊ % 2 != 0) = true ↔ ((⌊y⌋₊ / 2 : Nat) : ℚ) + 1 / 2 ≤ y / 2
    rcases Nat.even_or_odd' ⌊y⌋₊ with ⟨k, hk | hk⟩
    · rw [hk] at hlt ⊢
      push_cast at hlt
      simp
      linarith
    · rw [hk] at hle ⊢
      rw [show (2 * k + 1) / 2 = k by omega]
      push_cast at hle
      simp
      linarith
  · show ((extended y).roundBit || (extended y).stickyBit) = true ↔
      y / 2 ≠ ((⌊y⌋₊ / 2 : Nat) : ℚ) ∧ y / 2 ≠ ((⌊y⌋₊ / 2 : Nat) : ℚ) + 1 / 2
    rw [hbits]
    rcases Nat.even_or_odd' ⌊y⌋₊ with ⟨k, hk | hk⟩
    · rw [hk] at hlt ⊢
      rw [show 2 * k / 2 = k by omega]
      push_cast at hlt ⊢
      constructor
      · intro hne
        exact ⟨fun h => hne (by linarith), fun h => by linarith⟩
      · rintro ⟨hne, -⟩ h
        exact hne (by linarith)
    · rw [hk] at hle ⊢
      rw [show (2 * k + 1) / 2 = k by omega]
      push_cast at hle ⊢
      constructor
      · intro hne
        exact ⟨fun h => by linarith, fun h => hne (by linarith)⟩
      · rintro ⟨-, hne⟩ h
        exact hne (by linarith)

theorem shiftRight_extended (hy : 0 ≤ y) (k : Nat) : extended y >>> k = extended (y / 2 ^ k) := by
  show k.repeat ExtendedMantissa.shiftRightOne (extended y) = _
  induction k with
  | zero => rw [pow_zero, div_one]; rfl
  | succ k ih =>
    show (k.repeat ExtendedMantissa.shiftRightOne (extended y)).shiftRightOne = _
    rw [ih, shiftRightOne_extended (by positivity), div_div, pow_succ]

end Shift

/-! ## §2 — the nearest whole number -/

/-- The nearest whole number, an even one in the middle between two. -/
def roundHalfEven (y : ℚ) : Nat := (extended y).roundedMantissa

theorem roundHalfEven_natCast (n : Nat) : roundHalfEven n = n := by
  unfold roundHalfEven
  rw [← extended_natCast]
  rfl

theorem roundHalfEven_bounds (y : ℚ) : ⌊y⌋₊ ≤ roundHalfEven y ∧ roundHalfEven y ≤ ⌊y⌋₊ + 1 :=
  roundToNearestEven_bounds _ _

theorem roundHalfEven_eq_zero {y : ℚ} (h : y < 1 / 2) : roundHalfEven y = 0 := by
  have hfloor : ⌊y⌋₊ = 0 := Nat.floor_eq_zero.mpr (by linarith)
  have hround : (extended y).roundBit = false := by
    simp only [extended, hfloor, decide_eq_false_iff_not]
    push_cast
    linarith
  unfold roundHalfEven ExtendedMantissa.roundedMantissa ExtendedMantissa.accuracy
  rw [show extended y = ⟨⌊y⌋₊, (extended y).roundBit, (extended y).stickyBit⟩ from rfl, hround,
    hfloor]
  cases (extended y).stickyBit <;> rfl

/-! ## §3 — the unit in the last place -/

/-- The exponent of the unit in which a positive number is rounded. -/
def unitExponent (q : ℚ) : Int := max (Int.log 2 q - 52) (-1074)

section Unit

variable {q : ℚ}

theorem log_eq_of_bounds (hq : 0 < q) {t : Int} (h : (2 : ℚ) ^ t ≤ q) (h' : q < 2 ^ (t + 1)) :
    Int.log 2 q = t := by
  have hlow : t ≤ Int.log 2 q := (Int.zpow_le_iff_le_log one_lt_two hq).mp (by exact_mod_cast h)
  have hhigh : Int.log 2 q < t + 1 :=
    (Int.lt_zpow_iff_log_lt one_lt_two hq).mp (by exact_mod_cast h')
  omega

theorem zpow_log_le (hq : 0 < q) : (2 : ℚ) ^ Int.log 2 q ≤ q := by
  exact_mod_cast Int.zpow_log_le_self one_lt_two hq

theorem lt_zpow_log (q : ℚ) : q < 2 ^ (Int.log 2 q + 1) := by
  exact_mod_cast Int.lt_zpow_succ_log_self one_lt_two q

theorem two_zpow_pos (t : Int) : (0 : ℚ) < 2 ^ t := zpow_pos two_pos t

/-- A positive number has fewer than `2 ^ 53` units. -/
theorem units_lt (q : ℚ) : q / 2 ^ unitExponent q < 2 ^ 53 := by
  have hlog := lt_zpow_log q
  rw [div_lt_iff₀ (two_zpow_pos _), ← zpow_natCast, ← zpow_add₀ two_ne_zero]
  refine lt_of_lt_of_le hlog (zpow_le_zpow_right₀ one_le_two ?_)
  unfold unitExponent
  omega

/-- It has at least `2 ^ 52` of them, unless the unit is the smallest one. -/
theorem le_units (hq : 0 < q) (h : unitExponent q ≠ -1074) : 2 ^ 52 ≤ q / 2 ^ unitExponent q := by
  have hlog := zpow_log_le hq
  rw [le_div_iff₀ (two_zpow_pos _), ← zpow_natCast, ← zpow_add₀ two_ne_zero]
  refine le_trans (zpow_le_zpow_right₀ one_le_two ?_) hlog
  unfold unitExponent at h ⊢
  omega

end Unit

/-! ## §4 — rounding and packing -/

/-- The second half of rounding: a carry into a fifty-fourth bit moves the exponent. -/
def settle (s : Sign) (r : Nat) (e : Int) : Float.Model.UnpackedFloat :=
  if h : r / 2 ^ droppedBits r e = 0 then .zero s
  else .finite s (r / 2 ^ droppedBits r e) (e + droppedBits r e) (Nat.pos_of_ne_zero h)

theorem roundWithAccuracy_eq_settle (s : Sign) (m : Nat) (e : Int) (a : Accuracy) :
    roundWithAccuracy binary64 s m e a =
      settle s (ExtendedMantissa.ofMantissaAndAccuracy m a >>> droppedBits m e).roundedMantissa
        (e + droppedBits m e) := by
  unfold roundWithAccuracy settle
  simp only [shiftToTargetExponent_eq, mantissa_shiftRight, mantissa_ofMantissaAndAccuracy]

section Round

variable {m : Nat} {e : Int} {a : Accuracy} {q : ℚ}

/-- Where the first half of rounding stops: at the unit in the last place. -/
theorem add_droppedBits (hq : 0 < q)
    (h : ExtendedMantissa.ofMantissaAndAccuracy m a = extended (q / 2 ^ e))
    (he : e ≤ unitExponent q) : e + droppedBits m e = unitExponent q := by
  have hy : 0 ≤ q / 2 ^ e := (div_pos hq (two_zpow_pos e)).le
  have hm : m = ⌊q / 2 ^ e⌋₊ := by
    rw [← mantissa_ofMantissaAndAccuracy m a, h]
    rfl
  have hle : (m : ℚ) * 2 ^ e ≤ q := by
    rw [← le_div_iff₀ (two_zpow_pos e), hm]
    exact Nat.floor_le hy
  have hlt : q < (m + 1 : Nat) * 2 ^ e := by
    rw [← div_lt_iff₀ (two_zpow_pos e), hm]
    exact_mod_cast Nat.lt_floor_add_one _
  unfold droppedBits unitExponent at *
  by_cases hm0 : m = 0
  -- less than one unit is left, so the unit is the smallest
  · rw [hm0, Nat.zero_add, Nat.cast_one, one_mul] at hlt
    have hlog : Int.log 2 q < e := (Int.lt_zpow_iff_log_lt one_lt_two hq).mp (by exact_mod_cast hlt)
    rw [hm0, Nat.log2_zero]
    omega
  -- the leading bit of the mantissa is that of the number
  · have hlog : Int.log 2 q = m.log2 + e := by
      apply log_eq_of_bounds hq
      · refine le_trans ?_ hle
        rw [zpow_add₀ two_ne_zero, zpow_natCast]
        exact mul_le_mul_of_nonneg_right (by exact_mod_cast Nat.log2_self_le hm0)
          (two_zpow_pos e).le
      · refine lt_of_lt_of_le hlt ?_
        rw [show (m.log2 : Int) + e + 1 = (m.log2 + 1 : Nat) + e by push_cast; ring,
          zpow_add₀ two_ne_zero, zpow_natCast]
        exact mul_le_mul_of_nonneg_right (by exact_mod_cast Nat.lt_log2_self)
          (two_zpow_pos e).le
    omega

/-- **Rounding sees the number only.** However a positive number is described, it is rounded in
units of its last place. -/
theorem roundWithAccuracy_eq_of_extended (s : Sign) (hq : 0 < q)
    (h : ExtendedMantissa.ofMantissaAndAccuracy m a = extended (q / 2 ^ e))
    (he : e ≤ unitExponent q) :
    roundWithAccuracy binary64 s m e a =
      settle s (roundHalfEven (q / 2 ^ unitExponent q)) (unitExponent q) := by
  have hexp := add_droppedBits hq h he
  have hscale : q / 2 ^ e / 2 ^ droppedBits m e = q / 2 ^ unitExponent q := by
    rw [div_div, ← zpow_natCast, ← zpow_add₀ two_ne_zero, hexp]
  rw [roundWithAccuracy_eq_settle, h,
    shiftRight_extended (div_pos hq (two_zpow_pos e)).le, hscale, hexp]
  rfl

end Round

/-- The pattern of a whole number of units, which runs on from one binade into the next. -/
def unitBits (r : Nat) (e : Int) : Nat := min ((e + 1074).toNat * 2 ^ 52 + r) (2047 * 2 ^ 52)

/-- **The pattern of a rounded number.** The number of units is added to the place of the unit, and
a carry comes out right. -/
theorem toNat_packed_settle {r : Nat} {e : Int} (hr : r ≤ 2 ^ 53) (he : -1074 ≤ e)
    (h : e = -1074 ∨ 2 ^ 52 ≤ r) : (packed (settle .positive r e)).toNat = unitBits r e := by
  unfold unitBits settle
  by_cases h0 : r = 0
  · subst h0
    rw [dif_pos (Nat.zero_div _), packed_zero, toNat_ofFields]
    simp [Sign.toBitVec]
    omega
  have hlog : r.log2 ≤ 53 := by
    have := (Nat.log2_lt h0).mpr (show r < 2 ^ 54 by omega)
    omega
  rcases Nat.lt_or_ge r (2 ^ 53) with hlt | hge
  · have hlog' := (Nat.log2_lt h0).mpr hlt
    have hdrop : droppedBits r e = 0 := by unfold droppedBits; omega
    simp only [hdrop, Nat.pow_zero, Nat.div_one, Nat.cast_zero, add_zero]
    rw [dif_neg h0, packed_finite]
    by_cases hinf : 2047 ≤ (e + 1075).toNat
    · rw [if_pos hinf, toNat_ofFields]
      simp [Sign.toBitVec]
      omega
    rw [if_neg hinf]
    by_cases hnormal : r.log2 = 52
    · have hle : 2 ^ 52 ≤ r := by
        have := Nat.log2_self_le h0
        rwa [hnormal] at this
      rw [if_pos hnormal, toNat_ofFields, BitVec.toNat_ofNat, BitVec.toNat_ofNat]
      simp [Sign.toBitVec]
      omega
    · have hsub : r < 2 ^ 52 := (Nat.log2_lt h0).mp (by omega)
      rw [if_neg hnormal, toNat_ofFields, BitVec.toNat_ofNat]
      simp [Sign.toBitVec]
      omega
  -- a carry leaves one bit in the next binade
  · obtain rfl : r = 2 ^ 53 := Nat.le_antisymm hr hge
    have hdrop : droppedBits (2 ^ 53) e = 1 := by
      unfold droppedBits
      rw [Nat.log2_two_pow]
      omega
    simp only [hdrop]
    rw [dif_neg (by decide), packed_finite]
    by_cases hinf : 2047 ≤ (e + (1 : Nat) + 1075).toNat
    · rw [if_pos hinf, toNat_ofFields]
      simp [Sign.toBitVec]
      omega
    rw [if_neg hinf, if_pos (by decide), toNat_ofFields, BitVec.toNat_ofNat, BitVec.toNat_ofNat]
    simp [Sign.toBitVec]
    omega

/-- The pattern of the double nearest to a positive number. -/
def nearestBits (q : ℚ) : Nat := unitBits (roundHalfEven (q / 2 ^ unitExponent q)) (unitExponent q)

theorem neg_le_unitExponent (q : ℚ) : -1074 ≤ unitExponent q := le_max_right _ _

theorem roundedUnits_le (q : ℚ) : roundHalfEven (q / 2 ^ unitExponent q) ≤ 2 ^ 53 := by
  have hbounds := (roundHalfEven_bounds (q / 2 ^ unitExponent q)).2
  have hfloor : ⌊q / 2 ^ unitExponent q⌋₊ < 2 ^ 53 :=
    (Nat.floor_lt' (by decide)).mpr (by exact_mod_cast units_lt q)
  omega

theorem le_roundedUnits {q : ℚ} (hq : 0 < q) (h : unitExponent q ≠ -1074) :
    2 ^ 52 ≤ roundHalfEven (q / 2 ^ unitExponent q) := by
  refine le_trans (Nat.le_floor ?_) (roundHalfEven_bounds _).1
  exact_mod_cast le_units hq h

/-- **Rounding is to the nearest double.** -/
theorem toNat_packed_roundWithAccuracy {m : Nat} {e : Int} {a : Accuracy} {q : ℚ} (hq : 0 < q)
    (h : ExtendedMantissa.ofMantissaAndAccuracy m a = extended (q / 2 ^ e))
    (he : e ≤ unitExponent q) :
    (packed (roundWithAccuracy binary64 .positive m e a)).toNat = nearestBits q := by
  rw [roundWithAccuracy_eq_of_extended .positive hq h he]
  apply toNat_packed_settle (roundedUnits_le q) (neg_le_unitExponent q)
  by_cases hunit : unitExponent q = -1074
  · exact .inl hunit
  · exact .inr (le_roundedUnits hq hunit)

/-! ## §5 — numbers that are far out -/

theorem nearestBits_of_large {q : ℚ} (h : 2 ^ (1024 : Int) ≤ q) :
    nearestBits q = 2047 * 2 ^ 52 := by
  have hq : 0 < q := lt_of_lt_of_le (two_zpow_pos _) h
  have hlog : 1024 ≤ Int.log 2 q :=
    (Int.zpow_le_iff_le_log one_lt_two hq).mp (by rw [Nat.cast_ofNat]; exact h)
  have hunit : 972 ≤ unitExponent q := by
    unfold unitExponent
    omega
  have hr := le_roundedUnits hq (by omega)
  unfold nearestBits unitBits
  omega

theorem nearestBits_of_small {q : ℚ} (hq : 0 < q) (h : q < 2 ^ (-1075 : Int)) :
    nearestBits q = 0 := by
  have hlog : Int.log 2 q < -1075 :=
    (Int.lt_zpow_iff_log_lt one_lt_two hq).mp (by exact_mod_cast h)
  have hunit : unitExponent q = -1074 := by
    unfold unitExponent
    omega
  have hhalf : q / 2 ^ (-1074 : Int) < 1 / 2 := by
    rw [div_lt_iff₀ (two_zpow_pos _)]
    refine lt_of_lt_of_eq h ?_
    rw [show (-1075 : Int) = -1 + -1074 from rfl, zpow_add₀ two_ne_zero, zpow_neg_one, one_div]
  unfold nearestBits unitBits
  rw [hunit, roundHalfEven_eq_zero hhalf]
  rfl

/-! ## §6 — numbers that are doubles -/

theorem log_mul_zpow {r : Nat} (hr : 0 < r) (e : Int) :
    Int.log 2 ((r : ℚ) * 2 ^ e) = r.log2 + e := by
  apply log_eq_of_bounds (mul_pos (Nat.cast_pos.mpr hr) (two_zpow_pos e))
  · rw [zpow_add₀ two_ne_zero, zpow_natCast]
    exact mul_le_mul_of_nonneg_right (by exact_mod_cast Nat.log2_self_le hr.ne')
      (two_zpow_pos e).le
  · rw [show (r.log2 : Int) + e + 1 = (r.log2 + 1 : Nat) + e by push_cast; ring,
      zpow_add₀ two_ne_zero, zpow_natCast]
    exact mul_lt_mul_of_pos_right (by exact_mod_cast Nat.lt_log2_self) (two_zpow_pos e)

/-- A whole number of units of the last place is not changed by rounding. -/
theorem nearestBits_mul_zpow {r : Nat} {e : Int} (hr : 0 < r) (hr' : r < 2 ^ 53) (he : -1074 ≤ e)
    (h : e = -1074 ∨ 2 ^ 52 ≤ r) : nearestBits (r * 2 ^ e) = unitBits r e := by
  have hlog' := (Nat.log2_lt hr.ne').mpr hr'
  have hunit : unitExponent (r * 2 ^ e) = e := by
    unfold unitExponent
    rw [log_mul_zpow hr]
    rcases h with h | h
    · omega
    · have := (Nat.le_log2 hr.ne').mpr h
      omega
  unfold nearestBits
  rw [hunit, mul_div_assoc, div_self (two_zpow_pos e).ne', mul_one, roundHalfEven_natCast]

/-- The number that a finite double stands for, without its sign. -/
def magnitude (x : Float) : ℚ := significand x * 2 ^ exponent x

theorem fractionField_eq (x : Float) : fractionField x = wordFraction x.toBits := by
  unfold fractionField wordFraction
  rw [UInt64.toNat_and]
  show x.toBits.toNat &&& (2 ^ 52 - 1) = _
  rw [Nat.and_two_pow_sub_one_eq_mod]

/-- The significand and the exponent of a double are a whole number of units of its last place. -/
theorem significand_bounds (x : Float) :
    significand x < 2 ^ 53 ∧ -1074 ≤ exponent x ∧
      (exponent x = -1074 ∨ 2 ^ 52 ≤ significand x) := by
  have hfraction := wordFraction_lt x.toBits
  unfold significand exponent leadingBit
  rw [exponentField_eq, fractionField_eq]
  split <;> omega

/-- The pattern of a finite double without its sign. -/
theorem unitBits_significand {x : Float} (hfin : wordExponent x.toBits < 2047) :
    unitBits (significand x) (exponent x) = x.toBits.toNat % 2 ^ 63 := by
  have hfields := toNat_eq_fields x.toBits
  have hfraction := wordFraction_lt x.toBits
  have hsign : (wordSign x.toBits).toBitVec.toNat ≤ 1 := Nat.le_of_lt_succ (BitVec.isLt _)
  unfold unitBits significand exponent leadingBit
  rw [exponentField_eq, fractionField_eq]
  split <;> omega

/-- **A double is the nearest to itself.** -/
theorem nearestBits_magnitude {x : Float} (hfin : wordExponent x.toBits < 2047)
    (hpos : 0 < significand x) : nearestBits (magnitude x) = x.toBits.toNat % 2 ^ 63 := by
  obtain ⟨hlt, hexp, hunit⟩ := significand_bounds x
  exact (nearestBits_mul_zpow hpos hlt hexp hunit).trans (unitBits_significand hfin)

/-- A normal double by the units of its last place. -/
theorem unpack_of_unitBits {x : Float} {r : Nat} {e : Int}
    (hbits : x.toBits.toNat = unitBits r e) (hr : 2 ^ 52 ≤ r) (hr' : r < 2 ^ 53)
    (he : -1074 ≤ e) (he' : e ≤ 971) :
    x.toModel.unpack = .finite .positive r e (Nat.lt_of_lt_of_le (by decide) hr) := by
  have hval : x.toBits.toNat = (e + 1075).toNat * 2 ^ 52 + (r - 2 ^ 52) := by
    rw [hbits, unitBits]
    omega
  have hexp : wordExponent x.toBits = (e + 1075).toNat := by
    unfold wordExponent
    omega
  have hfrac : wordFraction x.toBits = r - 2 ^ 52 := by
    unfold wordFraction
    omega
  have hsign : wordSign x.toBits = .positive := by
    rw [wordSign_eq_positive]
    omega
  have henc := encodes_toBits x
  generalize x.toModel.unpack = f at henc ⊢
  cases henc with
  | infinity h _ => omega
  | notANumber h _ => omega
  | zero h _ => omega
  | subnormal h _ => omega
  | normal _ _ hm =>
    rw [hsign]
    exact finite_congr _ (by omega) (by omega)

/-- A positive double is the nearest to the number that it unpacks to. -/
theorem toNat_toBits_of_unpack {x : Float} {m : Nat} {e : Int} {hm : 0 < m}
    (h : x.toModel.unpack = .finite .positive m e hm) :
    x.toBits.toNat = nearestBits (m * 2 ^ e) := by
  have henc := encodes_toBits x
  have hfields := toNat_eq_fields x.toBits
  have hfraction := wordFraction_lt x.toBits
  have hsign : Sign.positive.toBitVec.toNat = 0 := rfl
  generalize x.toModel.unpack = f at henc h
  cases henc with
  | infinity _ _ => cases h
  | notANumber _ _ => cases h
  | zero _ _ => cases h
  | subnormal he hpos =>
    obtain ⟨hs, rfl, rfl⟩ := Float.Model.UnpackedFloat.finite.inj h
    rw [hs, he, hsign] at hfields
    rw [nearestBits_mul_zpow hpos (by omega) (le_refl _) (.inl rfl), unitBits]
    omega
  | normal h0 he hpos =>
    obtain ⟨hs, rfl, rfl⟩ := Float.Model.UnpackedFloat.finite.inj h
    rw [hs, hsign] at hfields
    rw [nearestBits_mul_zpow hpos (by omega) (by omega) (.inr (by omega)), unitBits]
    omega

/-! ## §7 — words -/

/-- A whole number with an exponent becomes the nearest double. -/
theorem toNat_packed_normalize {m : Nat} (hm : 0 < m) (e : Int) :
    (packed (Float.Model.UnpackedFloat.normalize binary64 m e .positive)).toNat =
      nearestBits (m * 2 ^ e) := by
  have hcmp : compare (m : Int) 0 = .gt := by
    rw [Int.compare_eq_gt]
    omega
  unfold Float.Model.UnpackedFloat.normalize
  rw [hcmp]
  simp only [Int.toNat_natCast]
  unfold Float.Model.UnpackedFloat.round decreaseExponent
  dsimp only
  have htarget : targetExponent binary64 (Float.Model.totalExponent m e) =
      unitExponent (m * 2 ^ e) := by
    unfold targetExponent Float.Model.totalExponent unitExponent
    rw [show binary64.minExponent = -1074 from rfl, show binary64.mantissaBits = 53 from rfl,
      log_mul_zpow hm]
    omega
  rw [htarget]
  generalize hk : (e - unitExponent (m * 2 ^ e)).toNat = k
  -- the number is shifted left, which its exponent takes back
  apply toNat_packed_roundWithAccuracy (mul_pos (Nat.cast_pos.mpr hm) (two_zpow_pos e))
  · have hshift : (m : ℚ) * 2 ^ e / 2 ^ (e - k) = (m <<< k : Nat) := by
      have he := (two_zpow_pos e).ne'
      rw [Nat.shiftLeft_eq, zpow_sub₀ two_ne_zero, zpow_natCast]
      push_cast
      field_simp
    rw [extended_natCast, hshift]
  · omega

/-- **A word becomes the nearest double.** -/
theorem toNat_toBits_toFloat {n : UInt64} (hn : n ≠ 0) :
    n.toFloat.toBits.toNat = nearestBits n.toNat := by
  have h0 : n.toNat ≠ 0 := fun h => hn (UInt64.toNat.inj h)
  have hnormalize := toNat_packed_normalize (Nat.pos_of_ne_zero h0) 0
  rw [zpow_zero, mul_one] at hnormalize
  exact hnormalize

/-- Words below `2 ^ 53` are doubles. -/
theorem unpack_toFloat_of_lt {n : UInt64} (hn : n ≠ 0) (h : n.toNat < 2 ^ 53) :
    ∃ r e hr, n.toFloat.toModel.unpack = .finite .positive r e hr ∧ 2 ^ 52 ≤ r ∧
      (r : ℚ) * 2 ^ e = n.toNat := by
  have h0 : n.toNat ≠ 0 := fun h => hn (UInt64.toNat.inj h)
  have hlog := (Nat.log2_lt h0).mpr h
  have hlow := Nat.log2_self_le h0
  have hhigh : n.toNat < 2 ^ (n.toNat.log2 + 1) := Nat.lt_log2_self
  generalize n.toNat.log2 = l at hlog hlow hhigh
  -- the leading bit is moved to the place that the format has for it
  have hr : 2 ^ 52 ≤ n.toNat * 2 ^ (52 - l) := by
    refine le_trans (le_of_eq ?_) (Nat.mul_le_mul_right _ hlow)
    rw [← Nat.pow_add]
    congr 1
    omega
  have hr' : n.toNat * 2 ^ (52 - l) < 2 ^ 53 := by
    refine lt_of_lt_of_eq (Nat.mul_lt_mul_of_pos_right hhigh (Nat.two_pow_pos _)) ?_
    rw [← Nat.pow_add]
    congr 1
    omega
  have hval : ((n.toNat * 2 ^ (52 - l) : Nat) : ℚ) * 2 ^ (l - 52 : Int) = n.toNat := by
    rw [show (l - 52 : Int) = -((52 - l : Nat) : Int) by omega, zpow_neg, zpow_natCast]
    push_cast
    field_simp
  have hbits : n.toFloat.toBits.toNat = unitBits (n.toNat * 2 ^ (52 - l)) (l - 52) := by
    rw [toNat_toBits_toFloat hn, ← hval]
    exact nearestBits_mul_zpow (by omega) hr' (by omega) (.inr hr)
  exact ⟨_, _, _, unpack_of_unitBits hbits hr hr' (by omega) (by omega), hr, hval⟩

/-! ## §8 — products and quotients -/

section Arithmetic

variable {m n : Nat} {e f : Int}

/-- A description with fifty-three bits is fine enough. -/
theorem le_unitExponent {q : ℚ} (hq : 0 < q) (h : 2 ^ 52 ≤ q / 2 ^ e) : e ≤ unitExponent q := by
  have hle : (2 : ℚ) ^ (52 + e) ≤ q := by
    rw [zpow_add₀ two_ne_zero, ← le_div_iff₀ (two_zpow_pos e)]
    exact_mod_cast h
  have hlog : 52 + e ≤ Int.log 2 q :=
    (Int.zpow_le_iff_le_log one_lt_two hq).mp (by exact_mod_cast hle)
  unfold unitExponent
  omega

/-- **Products are rounded correctly** if there are enough bits, or more than the format has. -/
theorem toNat_packed_mul (hm : 0 < m) (hn : 0 < n) (h : e + f ≤ -1074 ∨ 2 ^ 52 ≤ m * n) :
    (packed (Float.Model.UnpackedFloat.mul binary64 (.finite .positive m e hm)
      (.finite .positive n f hn))).toNat = nearestBits (m * 2 ^ e * (n * 2 ^ f)) := by
  have hq : (0 : ℚ) < m * 2 ^ e * (n * 2 ^ f) :=
    mul_pos (mul_pos (Nat.cast_pos.mpr hm) (two_zpow_pos e))
      (mul_pos (Nat.cast_pos.mpr hn) (two_zpow_pos f))
  have hscaled : (m : ℚ) * 2 ^ e * (n * 2 ^ f) / 2 ^ (e + f) = (m * n : Nat) := by
    rw [zpow_add₀ two_ne_zero]
    have he := (two_zpow_pos e).ne'
    have hf := (two_zpow_pos f).ne'
    push_cast
    field_simp
  apply toNat_packed_roundWithAccuracy hq
  · rw [extended_natCast, hscaled]
  · rcases h with hsmall | hlarge
    · exact hsmall.trans (neg_le_unitExponent _)
    · apply le_unitExponent hq
      rw [hscaled]
      exact_mod_cast hlarge

/-- **Quotients are rounded correctly.** -/
theorem toNat_packed_div (hm : 0 < m) (hn : 0 < n) :
    (packed (Float.Model.UnpackedFloat.div binary64 (.finite .positive m e hm)
      (.finite .positive n f hn))).toNat = nearestBits (m * 2 ^ e / (n * 2 ^ f)) := by
  have hq : (0 : ℚ) < m * 2 ^ e / (n * 2 ^ f) :=
    div_pos (mul_pos (Nat.cast_pos.mpr hm) (two_zpow_pos e))
      (mul_pos (Nat.cast_pos.mpr hn) (two_zpow_pos f))
  have htarget : targetExponent binary64
      (Float.Model.totalExponent m e - Float.Model.totalExponent n f) =
        max ((m.log2 : Int) - n.log2 + e - f - 53) (-1074) := by
    unfold targetExponent Float.Model.totalExponent
    rw [show binary64.minExponent = -1074 from rfl, show binary64.mantissaBits = 53 from rfl]
    omega
  show (packed (roundWithAccuracy binary64 .positive (divCore binary64 m e n f).1
    (divCore binary64 m e n f).2.1 (divCore binary64 m e n f).2.2)).toNat = _
  unfold divCore
  dsimp only
  rw [htarget]
  generalize ht : min (e - f) (max ((m.log2 : Int) - n.log2 + e - f - 53) (-1074)) = t
  -- the dividend is shifted left until the quotient has enough bits
  apply toNat_packed_roundWithAccuracy hq
  · rw [extended_div _ hn, Nat.shiftLeft_eq]
    have hshift : (2 : ℚ) ^ (e - f - t).toNat = 2 ^ e / 2 ^ f / 2 ^ t := by
      rw [← zpow_natCast, Int.toNat_of_nonneg (by omega), zpow_sub₀ two_ne_zero,
        zpow_sub₀ two_ne_zero]
    push_cast
    rw [hshift]
    congr 1
    have he := (two_zpow_pos e).ne'
    have hf := (two_zpow_pos f).ne'
    have ht := (two_zpow_pos t).ne'
    field_simp
  · have hlog : (m.log2 : Int) + e - (n.log2 + 1 + f) ≤
        Int.log 2 ((m : ℚ) * 2 ^ e / (n * 2 ^ f)) := by
      apply (Int.zpow_le_iff_le_log one_lt_two hq).mp
      rw [Nat.cast_ofNat, zpow_sub₀ two_ne_zero, zpow_add₀ two_ne_zero, zpow_add₀ two_ne_zero]
      apply div_le_div₀ (by positivity)
      · apply mul_le_mul_of_nonneg_right _ (two_zpow_pos e).le
        rw [zpow_natCast]
        exact_mod_cast Nat.log2_self_le hm.ne'
      · positivity
      · apply mul_le_mul_of_nonneg_right _ (two_zpow_pos f).le
        exact_mod_cast Nat.lt_log2_self.le
    unfold unitExponent
    omega

end Arithmetic

/-! ## §9 — signs -/

/-- The sign bit of an unpacked number. -/
def signBit : Float.Model.UnpackedFloat → Nat
  | .notANumber => 0
  | .infinity s => s.toBitVec.toNat
  | .zero s => s.toBitVec.toNat
  | .finite s .. => s.toBitVec.toNat

/-- The sign bit stands in front of the pattern of the magnitude. -/
theorem toNat_packed_eq_signBit (f : Float.Model.UnpackedFloat) (hf : f.isNaN = false) :
    (packed f).toNat = signBit f * 2 ^ 63 + (packed f.abs).toNat ∧ (packed f.abs).toNat < 2 ^ 63 := by
  have hfields : ∀ (s : Sign) (e : BitVec 11) (m : BitVec 52),
      (ofFields s e m).toNat = s.toBitVec.toNat * 2 ^ 63 + (ofFields .positive e m).toNat ∧
        (ofFields .positive e m).toNat < 2 ^ 63 := by
    intro s e m
    have he := e.isLt
    have hm := m.isLt
    rw [toNat_ofFields, toNat_ofFields]
    simp [Sign.toBitVec]
    omega
  cases f with
  | notANumber => cases hf
  | infinity s => exact hfields s (-1#11) 0
  | zero s => exact hfields s 0 0
  | finite s m e hm =>
    show (packed (.finite s m e hm)).toNat = s.toBitVec.toNat * 2 ^ 63 +
      (packed (.finite .positive m e hm)).toNat ∧ (packed (.finite .positive m e hm)).toNat < 2 ^ 63
    rw [packed_finite, packed_finite]
    split
    · exact hfields s _ _
    · split
      · exact hfields s _ _
      · exact hfields s _ _

section Sign

variable {x : Float}

theorem isNumber_of_not_isNaN (hx : x.isNaN = false) : IsNumber x.toBits := by
  have henc := encodes_toBits x
  have hnan : x.toModel.unpack.isNaN = false := hx
  unfold IsNumber
  generalize x.toModel.unpack = f at henc hnan
  cases henc with
  | infinity _ hm => exact fun _ => hm
  | notANumber => cases hnan
  | zero _ hm => exact fun _ => hm
  | subnormal he _ => exact fun h => by omega
  | normal _ he _ => exact fun h => by omega

/-- A double is the packed form of what it unpacks to. -/
theorem toBits_of_unpack {f : Float.Model.UnpackedFloat} (h : x.toModel.unpack = f)
    (hx : x.isNaN = false) : x.toBits = packed f := by
  rw [← h]
  exact (packed_unpack (isNumber_of_not_isNaN hx)).symm

theorem isFinite_iff : x.isFinite = true ↔ wordExponent x.toBits < 2047 := by
  have henc := encodes_toBits x
  show x.toModel.unpack.isFinite = true ↔ _
  generalize x.toModel.unpack = f at henc ⊢
  cases henc with
  | infinity he _ => exact iff_of_false nofun (by omega)
  | notANumber he _ => exact iff_of_false nofun (by omega)
  | zero he _ => exact iff_of_true rfl (by omega)
  | subnormal he _ => exact iff_of_true rfl (by omega)
  | normal _ he _ => exact iff_of_true rfl he

theorem isNaN_of_isFinite (hx : x.isFinite = true) : x.isNaN = false := by
  have hmodel : x.toModel.unpack.isFinite = true := hx
  show x.toModel.unpack.isNaN = false
  cases hf : x.toModel.unpack with
  | notANumber => rw [hf] at hmodel; cases hmodel
  | infinity s => rfl
  | zero s => rfl
  | finite s m e hm => rfl

theorem isNegative_iff : isNegative x = true ↔ 2 ^ 63 ≤ x.toBits.toNat := by
  have hx := x.toBits.toNat_lt
  have hshift : (x.toBits >>> 63).toNat = x.toBits.toNat / 2 ^ 63 := by
    rw [UInt64.toNat_shiftRight]
    exact Nat.shiftRight_eq_div_pow _ _
  unfold isNegative
  rw [bne_iff_ne, Ne, ← UInt64.toNat_inj, hshift]
  show ¬ x.toBits.toNat / 2 ^ 63 = 0 ↔ _
  omega

/-- The pattern of a magnitude is the pattern without the sign bit. -/
theorem toNat_toBits_abs (hx : x.isNaN = false) : x.abs.toBits.toNat = x.toBits.toNat % 2 ^ 63 := by
  obtain ⟨heq, hlt⟩ := toNat_packed_eq_signBit x.toModel.unpack hx
  have hbits : (packed x.toModel.unpack).toNat = x.toBits.toNat :=
    congrArg _ (packed_unpack (isNumber_of_not_isNaN hx))
  show (packed x.toModel.unpack.abs).toNat = _
  omega

/-- The opposite of a number without a sign has a sign bit and is otherwise the same. -/
theorem toNat_toBits_neg (hx : x.isNaN = false) (hpos : x.toBits.toNat < 2 ^ 63) :
    (-x).toBits.toNat = x.toBits.toNat + 2 ^ 63 := by
  obtain ⟨heq, hlt⟩ := toNat_packed_eq_signBit x.toModel.unpack hx
  have hbits : (packed x.toModel.unpack).toNat = x.toBits.toNat :=
    congrArg _ (packed_unpack (isNumber_of_not_isNaN hx))
  show (packed x.toModel.unpack.neg).toNat = _
  have hnumber : x.toModel.unpack.isNaN = false := hx
  generalize x.toModel.unpack = f at hnumber heq hlt hbits
  have hneg : f.neg.isNaN = false ∧ f.neg.abs = f.abs ∧ signBit f.neg + signBit f = 1 := by
    have hflip : ∀ s : Sign, (-s).toBitVec.toNat + s.toBitVec.toNat = 1 := by
      intro s
      cases s <;> rfl
    cases f with
    | notANumber => cases hnumber
    | infinity s => exact ⟨rfl, rfl, hflip s⟩
    | zero s => exact ⟨rfl, rfl, hflip s⟩
    | finite s m e hm => exact ⟨rfl, rfl, hflip s⟩
  obtain ⟨hnan, habs, hsign⟩ := hneg
  rw [(toNat_packed_eq_signBit f.neg hnan).1, habs]
  omega

/-- A number is its magnitude behind its sign. -/
theorem signed_abs (hx : x.isNaN = false) : (if isNegative x then -x.abs else x.abs) = x := by
  have habs := toNat_toBits_abs hx
  have hlt := x.toBits.toNat_lt
  apply Float.toBits_inj.mp
  apply UInt64.toNat.inj
  by_cases hneg : isNegative x = true
  · have hsign := isNegative_iff.mp hneg
    have hnan : x.abs.isNaN = false := by
      apply NonNeg.not_isNaN
      rw [nonNeg_iff, wordSign_eq_positive]
      have hnumber := isNumber_of_not_isNaN hx
      unfold IsNumber wordExponent wordFraction at *
      omega
    rw [if_pos hneg, toNat_toBits_neg hnan (by omega)]
    omega
  · have hsign := mt isNegative_iff.mpr hneg
    rw [if_neg hneg]
    omega

/-- There is one pattern for what is not a number. -/
theorem toBits_of_isNaN (hx : x.isNaN = true) : x.toBits = 0x7ff8000000000000 := by
  have hmodel : x.toModel.unpack.isNaN = true := hx
  rw [← Float.ofBits_toBits x]
  show packed x.toModel.unpack = _
  cases hf : x.toModel.unpack with
  | notANumber => rfl
  | infinity s => rw [hf] at hmodel; cases hmodel
  | zero s => rw [hf] at hmodel; cases hmodel
  | finite s m e hm => rw [hf] at hmodel; cases hmodel

/-- An infinity is known by its sign. -/
theorem toBits_of_infinite (hx : x.isNaN = false) (hinf : x.isFinite = false) :
    x.toBits = if isNegative x then 0xfff0000000000000 else 0x7ff0000000000000 := by
  have hexp : ¬ wordExponent x.toBits < 2047 := by
    rw [← isFinite_iff, hinf]
    exact Bool.false_ne_true
  have hexp' := wordExponent_lt x.toBits
  have hfraction := isNumber_of_not_isNaN hx (by omega)
  have hfields := toNat_eq_fields x.toBits
  have hsign : (wordSign x.toBits).toBitVec.toNat ≤ 1 := Nat.le_of_lt_succ (BitVec.isLt _)
  apply UInt64.toNat.inj
  by_cases hneg : isNegative x = true
  · have hlarge := isNegative_iff.mp hneg
    rw [if_pos hneg]
    show _ = 0xfff0000000000000
    omega
  · have hsmall := mt isNegative_iff.mpr hneg
    rw [if_neg hneg]
    show _ = 0x7ff0000000000000
    omega

end Sign

end WorkloadSynth.Double
