import WorkloadSynth.Number.Style
import WorkloadSynth.Proofs.Rounding

/-!
# Decimals read back

A decimal becomes the double nearest to its value (`toNat_toBits_toFloat`), so two decimals with one
value become the same double (`toFloat_congr`).  The exact expansion of a finite double has the
value of the double, and the fewest digits are chosen among decimals that read back: whatever is
printed for a double is that double again (`toFloat_shortestDigits`).
-/

namespace WorkloadSynth

open Float.Model.UnpackedFloat Float.Model.Format

namespace Decimal

/-! ## §1 — values -/

/-- The number that a decimal stands for. -/
def value (d : Decimal) : ℚ := d.digits * 10 ^ d.exponent

theorem ten_zpow_pos (e : Int) : (0 : ℚ) < 10 ^ e := zpow_pos (by norm_num) e

theorem value_eq_zero_iff {d : Decimal} : d.value = 0 ↔ d.digits = 0 := by
  unfold value
  rw [mul_eq_zero, or_iff_left (ten_zpow_pos d.exponent).ne', Nat.cast_eq_zero]

/-- A zero at the end moves into the exponent. -/
theorem value_mul_ten (n : Nat) (e : Int) : value ⟨n * 10, e⟩ = value ⟨n, e + 1⟩ := by
  unfold value
  dsimp only
  rw [zpow_add_one₀ (by norm_num)]
  push_cast
  ring

theorem value_stripZeros (fuel : Nat) (d : Decimal) : (stripZeros fuel d).value = d.value := by
  induction fuel generalizing d with
  | zero => rfl
  | succ fuel ih =>
    unfold stripZeros
    by_cases h : d.digits ≠ 0 ∧ d.digits % 10 = 0
    · rw [if_pos h, ih, ← value_mul_ten, Nat.div_mul_cancel (Nat.dvd_of_mod_eq_zero h.2)]
    · rw [if_neg h]

theorem value_normalize (d : Decimal) : d.normalize.value = d.value := value_stripZeros _ d

/-! ## §2 — the nearest double -/

section Nearest

open Double

variable {m : Nat}

/-- Beyond the range a decimal is infinite. -/
theorem nearestBits_of_large_exponent (hm : m ≠ 0) {e : Int} (he : 2048 < e) :
    nearestBits (m * 10 ^ e) = 2047 * 2 ^ 52 := by
  apply nearestBits_of_large
  have hone : (1 : ℚ) ≤ m := Nat.one_le_cast.mpr (Nat.pos_of_ne_zero hm)
  have hten : (2 : ℚ) ^ (1024 : Int) ≤ 10 ^ e :=
    calc (2 : ℚ) ^ (1024 : Int) ≤ 2 ^ e := zpow_le_zpow_right₀ one_le_two (by omega)
      _ ≤ 10 ^ e := zpow_le_zpow_left₀ (by omega) two_pos.le (by norm_num)
  calc (2 : ℚ) ^ (1024 : Int) ≤ 10 ^ e := hten
    _ ≤ m * 10 ^ e := le_mul_of_one_le_left (ten_zpow_pos e).le hone

/-- Below the smallest double it is zero. -/
theorem nearestBits_of_small_exponent (hm : m ≠ 0) {e : Int} (he : e < -(2048 + m.log2)) :
    nearestBits (m * 10 ^ e) = 0 := by
  have hq : (0 : ℚ) < m * 10 ^ e :=
    mul_pos (Nat.cast_pos.mpr (Nat.pos_of_ne_zero hm)) (ten_zpow_pos e)
  apply nearestBits_of_small hq
  have hm' : (m : ℚ) < 2 ^ ((m.log2 + 1 : Nat) : Int) := by
    rw [zpow_natCast]
    exact_mod_cast Nat.lt_log2_self
  have hten : (10 : ℚ) ^ e ≤ 2 ^ e := by
    have h : (2 : ℚ) ^ (-e) ≤ 10 ^ (-e) := zpow_le_zpow_left₀ (by omega) two_pos.le (by norm_num)
    rw [zpow_neg, zpow_neg] at h
    exact (inv_le_inv₀ (two_zpow_pos e) (ten_zpow_pos e)).mp h
  calc (m : ℚ) * 10 ^ e < 2 ^ ((m.log2 + 1 : Nat) : Int) * 10 ^ e :=
        mul_lt_mul_of_pos_right hm' (ten_zpow_pos e)
    _ ≤ 2 ^ ((m.log2 + 1 : Nat) : Int) * 2 ^ e :=
        mul_le_mul_of_nonneg_left hten (two_zpow_pos _).le
    _ = 2 ^ ((m.log2 + 1 : Nat) + e) := (zpow_add₀ two_ne_zero _ _).symm
    _ ≤ 2 ^ (-1075 : Int) := zpow_le_zpow_right₀ one_le_two (by omega)

/-- The general way to read a decimal. -/
theorem toNat_packed_ofScientific (hm : m ≠ 0) (e : Int) :
    (packed (Float.Model.UnpackedFloat.ofScientific binary64 m e)).toNat =
      nearestBits (m * 10 ^ e) := by
  unfold Float.Model.UnpackedFloat.ofScientific
  rw [dif_neg hm, show ((2 : Int) ^ binary64.exponentBits) = 2048 from rfl]
  by_cases hlarge : e > 2048
  · rw [if_pos hlarge, nearestBits_of_large_exponent hm hlarge]
    rfl
  rw [if_neg hlarge]
  by_cases hsmall : e < -(2048 + m.log2)
  · rw [if_pos hsmall, nearestBits_of_small_exponent hm hsmall]
    rfl
  rw [if_neg hsmall]
  by_cases he : 0 ≤ e
  · rw [if_pos he, toNat_packed_mul]
    -- the number is shifted by as many bits as its exponent takes back
    · have hshift : ((m * 2 ^ 53 : Nat) : ℚ) * 2 ^ (-((53 : Nat) : Int)) = m := by
        rw [zpow_neg, zpow_natCast, Nat.cast_mul, Nat.cast_pow, Nat.cast_ofNat]
        exact mul_inv_cancel_right₀ (by positivity) _
      have hpow : ((10 ^ e.toNat : Nat) : ℚ) = 10 ^ e := by
        rw [Nat.cast_pow, Nat.cast_ofNat, ← zpow_natCast, Int.toNat_of_nonneg he]
      rw [Nat.shiftLeft_eq, show binary64.mantissaBits = 53 from rfl, hshift, hpow, zpow_zero,
        mul_one]
    · rw [Nat.shiftLeft_eq, show binary64.mantissaBits = 53 from rfl]
      have hpos := Nat.pos_of_ne_zero hm
      have hpow : 0 < 10 ^ e.toNat := by positivity
      refine .inr ?_
      calc 2 ^ 52 ≤ 1 * 2 ^ 53 * 1 := by norm_num
        _ ≤ m * 2 ^ 53 * 10 ^ e.toNat := Nat.mul_le_mul (Nat.mul_le_mul_right _ hpos) hpow
  · rw [if_neg he, toNat_packed_div, zpow_zero, mul_one, mul_one]
    push_cast
    rw [← zpow_natCast (10 : ℚ), Int.toNat_of_nonneg (by omega), zpow_neg, div_inv_eq_mul]

/-- The powers of ten up to the twenty-second are doubles. -/
theorem unpack_powerOfTen {k : Nat} (hk : k < Float.exactlyRepresentablePowersOfTen.size) :
    ∃ r e hr, Float.exactlyRepresentablePowersOfTen[k].toModel.unpack =
      .finite .positive r e hr ∧ 2 ^ 52 ≤ r ∧ (r : ℚ) * 2 ^ e = 10 ^ k := by
  have htable : ∀ k : Fin 23,
      1 ≤ Float.exactlyRepresentablePowersOfTen[k.val].toBits.toNat / 2 ^ 52 ∧
      Float.exactlyRepresentablePowersOfTen[k.val].toBits.toNat / 2 ^ 52 < 2047 ∧
      (Float.exactlyRepresentablePowersOfTen[k.val].toBits.toNat % 2 ^ 52 + 2 ^ 52) *
        2 ^ (Float.exactlyRepresentablePowersOfTen[k.val].toBits.toNat / 2 ^ 52) =
          10 ^ k.val * 2 ^ 1075 := by
    decide +kernel
  obtain ⟨hlow, hhigh, hpower⟩ := htable ⟨k, hk⟩
  dsimp only at hlow hhigh hpower
  generalize hx : Float.exactlyRepresentablePowersOfTen[k] = x at hlow hhigh hpower ⊢
  generalize hb : x.toBits.toNat = b at hlow hhigh hpower
  have hunits : x.toBits.toNat = unitBits (b % 2 ^ 52 + 2 ^ 52) ((b / 2 ^ 52 : Nat) - 1075) := by
    unfold unitBits
    omega
  refine ⟨_, _, _, unpack_of_unitBits hunits (by omega) (by omega) (by omega) (by omega),
    by omega, ?_⟩
  have hscaled : ((b % 2 ^ 52 + 2 ^ 52 : Nat) : ℚ) * 2 ^ (b / 2 ^ 52) = 10 ^ k * 2 ^ 1075 := by
    have hcast := congrArg (Nat.cast : Nat → ℚ) hpower
    rwa [Nat.cast_mul, Nat.cast_mul, Nat.cast_pow, Nat.cast_pow, Nat.cast_pow, Nat.cast_ofNat,
      Nat.cast_ofNat] at hcast
  rw [zpow_sub₀ two_ne_zero, zpow_natCast, ← mul_div_assoc, hscaled,
    show (1075 : Int) = (1075 : Nat) from rfl, zpow_natCast, mul_div_assoc,
    div_self (by positivity), mul_one]

/-- **Reading a decimal gives the nearest double**, also on the short way over a table. -/
theorem toNat_toBits_ofScientific (hm : m ≠ 0) (s : Bool) (e : Nat) :
    (Float.ofScientific m s e).toBits.toNat =
      nearestBits (m * 10 ^ (if s = true then Int.negOfNat e else Int.ofNat e)) := by
  unfold Float.ofScientific
  by_cases h : m < 2 ^ 53 ∧ e ≤ 22
  · rw [dif_pos h]
    dsimp only
    have hword : m.toUInt64.toNat = m := Nat.mod_eq_of_lt (by omega)
    have hne : m.toUInt64 ≠ 0 := by
      intro h0
      rw [h0] at hword
      exact hm hword.symm
    obtain ⟨r, f, hr, hunpack, hle, hval⟩ := unpack_toFloat_of_lt hne (by omega)
    have hsize : e < Float.exactlyRepresentablePowersOfTen.size := Nat.lt_succ_of_le h.2
    obtain ⟨r', f', hr', hunpack', hle', hval'⟩ := unpack_powerOfTen hsize
    rw [hword] at hval
    cases s with
    | true =>
      rw [if_pos rfl, if_pos rfl]
      show (packed (Float.Model.UnpackedFloat.div binary64 m.toUInt64.toFloat.toModel.unpack
        Float.exactlyRepresentablePowersOfTen[e].toModel.unpack)).toNat = _
      rw [hunpack, hunpack', toNat_packed_div, hval, hval', Int.negOfNat_eq, zpow_neg,
        ← div_eq_mul_inv]
      exact congrArg _ (congrArg _ (zpow_natCast _ _).symm)
    | false =>
      rw [if_neg Bool.false_ne_true, if_neg Bool.false_ne_true]
      show (packed (Float.Model.UnpackedFloat.mul binary64 m.toUInt64.toFloat.toModel.unpack
        Float.exactlyRepresentablePowersOfTen[e].toModel.unpack)).toNat = _
      rw [hunpack, hunpack', toNat_packed_mul _ _ (.inr (by nlinarith)), hval, hval']
      exact congrArg _ (congrArg _ (zpow_natCast _ _).symm)
  · rw [dif_neg h]
    exact toNat_packed_ofScientific hm _

theorem toNat_toBits_ofScientific_zero (s : Bool) (e : Nat) :
    (Float.ofScientific 0 s e).toBits.toNat = 0 := by
  by_cases h : e ≤ 22
  -- one of the powers in the table
  · have htable : ∀ k : Fin 23, ∀ s, (Float.ofScientific 0 s k.val).toBits.toNat = 0 := by
      decide +kernel
    exact htable ⟨e, Nat.lt_succ_of_le h⟩ s
  · unfold Float.ofScientific
    rw [dif_neg fun hfast => h hfast.2]
    rfl

/-- The pattern of the double that a decimal becomes. -/
def bits (d : Decimal) : Nat := if d.digits = 0 then 0 else nearestBits d.value

theorem toNat_toBits_toFloat (d : Decimal) : d.toFloat.toBits.toNat = d.bits := by
  obtain ⟨m, e⟩ := d
  unfold bits value toFloat
  dsimp only
  by_cases hm : m = 0
  · rw [if_pos hm, hm]
    cases e with
    | ofNat e => exact toNat_toBits_ofScientific_zero false e
    | negSucc e => exact toNat_toBits_ofScientific_zero true (e + 1)
  · rw [if_neg hm]
    cases e with
    | ofNat e => exact toNat_toBits_ofScientific hm false e
    | negSucc e => exact toNat_toBits_ofScientific hm true (e + 1)

/-- **Only the value counts.** -/
theorem toFloat_congr {d d' : Decimal} (h : d.value = d'.value) : d.toFloat = d'.toFloat := by
  apply Float.toBits_inj.mp
  apply UInt64.toNat.inj
  rw [toNat_toBits_toFloat, toNat_toBits_toFloat]
  have hzero : d.digits = 0 ↔ d'.digits = 0 := by
    rw [← value_eq_zero_iff, ← value_eq_zero_iff, h]
  unfold bits
  rw [h, if_congr hzero rfl rfl]

end Nearest

/-! ## §3 — exact expansions -/

open Double

variable {x : Float}

theorem digits_ofFloat_eq_zero_iff (x : Float) : (ofFloat x).digits = 0 ↔ significand x = 0 := by
  unfold ofFloat
  cases Double.exponent x with
  | ofNat q => simp
  | negSucc q => simp

/-- A double is exactly its expansion. -/
theorem value_ofFloat (x : Float) : (ofFloat x).value = magnitude x := by
  unfold ofFloat Double.magnitude value
  cases Double.exponent x with
  | ofNat q =>
    show ((significand x * 2 ^ q : Nat) : ℚ) * 10 ^ (0 : Int) = _
    rw [zpow_zero, mul_one]
    push_cast
    rfl
  | negSucc q =>
    show ((significand x * 5 ^ (q + 1) : Nat) : ℚ) * 10 ^ Int.negSucc q =
      significand x * 2 ^ Int.negSucc q
    rw [zpow_negSucc, zpow_negSucc, show (10 : ℚ) = 5 * 2 by norm_num, mul_pow]
    push_cast
    field_simp

/-- **The exact expansion reads back.** -/
theorem toFloat_ofFloat (hx : x.isFinite = true) : (ofFloat x).toFloat = x.abs := by
  have hexp := isFinite_iff.mp hx
  have hnan := isNaN_of_isFinite hx
  apply Float.toBits_inj.mp
  apply UInt64.toNat.inj
  rw [toNat_toBits_toFloat, toNat_toBits_abs hnan]
  unfold bits
  rw [value_ofFloat, if_congr (digits_ofFloat_eq_zero_iff x) rfl rfl]
  by_cases h0 : significand x = 0
  · rw [if_pos h0]
    have hunit := unitBits_significand hexp
    obtain ⟨-, -, hunits⟩ := significand_bounds x
    rw [← hunit, h0]
    unfold unitBits
    omega
  · rw [if_neg h0]
    exact nearestBits_magnitude hexp (Nat.pos_of_ne_zero h0)

/-! ## §4 — the fewest digits -/

/-- **The fewest digits read back.** -/
theorem toFloat_shortest (tie : Tie) (hx : x.isFinite = true) :
    (shortest tie x).toFloat = x.abs := by
  unfold shortest
  dsimp only
  rw [toFloat_congr (value_normalize _)]
  cases hfound : (List.range 17).findSome?
      fun n => (candidates tie (ofFloat x) (n + 1)).find? (readsBack x) with
  | none => exact toFloat_ofFloat hx
  | some d =>
    obtain ⟨n, -, hn⟩ := List.exists_of_findSome?_eq_some hfound
    apply Float.toBits_inj.mp
    simpa [readsBack] using List.find?_some hn

/-- **What is printed for a double becomes the double again**, apart from its sign. -/
theorem toFloat_shortestDigits (tie : Tie) (hx : x.isFinite = true) :
    (shortestDigits tie x).toFloat = x.abs := by
  unfold shortestDigits
  by_cases h0 : significand x = 0
  · rw [if_pos h0, ← toFloat_ofFloat hx]
    apply toFloat_congr
    rw [value_ofFloat, magnitude, h0, Nat.cast_zero, zero_mul]
    exact value_eq_zero_iff.mpr rfl
  · rw [if_neg h0]
    exact toFloat_shortest tie hx

end Decimal

end WorkloadSynth
