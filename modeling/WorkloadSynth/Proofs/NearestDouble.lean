import WorkloadSynth.Proofs.Comparison
import WorkloadSynth.Proofs.Decimal

/-!
# The order of rounded numbers

Rounding keeps the order of numbers (`nearestRank_mono`), moves a number by half a unit of its last
place at most (`IsRounded.abs_sub_le`) and does not move one of fifty-three bits
(`IsRounded.value_eq_self`).  Sums, differences, products and quotients of finite doubles that are
not below zero are the exact results, rounded (`rank_add`, `rank_sub`, `rank_mul`, `rank_div`), so
what holds of these in the rational numbers holds of the doubles as far as rounding keeps it.
-/

namespace WorkloadSynth.Double

open Float.Model.UnpackedFloat Float.Model.Format

/-! ## §1 — the nearest whole number -/

section Whole

variable {y z : ℚ}

theorem roundHalfEven_eq (hy : 0 ≤ y) :
    roundHalfEven y =
      if y < ⌊y⌋₊ + 1 / 2 then ⌊y⌋₊
      else if y = ⌊y⌋₊ + 1 / 2 then ⌊y⌋₊ + ⌊y⌋₊ % 2 else ⌊y⌋₊ + 1 := by
  have hle := Nat.floor_le hy
  unfold roundHalfEven ExtendedMantissa.roundedMantissa ExtendedMantissa.accuracy extended
  rcases lt_trichotomy y (⌊y⌋₊ + 1 / 2) with hlt | heq | hgt
  · rw [if_pos hlt, decide_eq_false (not_le.mpr hlt)]
    by_cases hwhole : y = ⌊y⌋₊
    · rw [decide_eq_false (fun h => h.1 hwhole)]
      rfl
    · rw [decide_eq_true ⟨hwhole, hlt.ne⟩]
      rfl
  · rw [if_neg heq.ge.not_gt, if_pos heq, decide_eq_true heq.ge, decide_eq_false fun h => h.2 heq]
    rfl
  · have hne : y ≠ ⌊y⌋₊ := by linarith
    rw [if_neg hgt.not_gt, if_neg hgt.ne', decide_eq_true hgt.le, decide_eq_true ⟨hne, hgt.ne'⟩]
    rfl

theorem roundHalfEven_mono (hy : 0 ≤ y) (h : y ≤ z) : roundHalfEven y ≤ roundHalfEven z := by
  rcases (Nat.floor_le_floor h).lt_or_eq with hlt | heq
  -- whole numbers in between keep them apart
  · have hlow := (roundHalfEven_bounds y).2
    have hhigh := (roundHalfEven_bounds z).1
    omega
  · have hz := roundHalfEven_eq (hy.trans h)
    rw [← heq] at hz
    rw [roundHalfEven_eq hy]
    rcases lt_trichotomy y (⌊y⌋₊ + 1 / 2) with hlow | htie | hhigh
    · rw [if_pos hlow, heq]
      exact (roundHalfEven_bounds z).1
    · rw [if_neg htie.ge.not_gt, if_pos htie, hz, if_neg (htie.ge.trans h).not_gt]
      split
      · exact le_refl _
      · omega
    · rw [if_neg hhigh.not_gt, if_neg hhigh.ne', hz, if_neg (hhigh.trans_le h).not_gt,
        if_neg (hhigh.trans_le h).ne']

/-- Rounding to a whole number moves by one half at most. -/
theorem abs_roundHalfEven_sub_le (hy : 0 ≤ y) : |(roundHalfEven y : ℚ) - y| ≤ 1 / 2 := by
  have hle := Nat.floor_le hy
  have hlt := Nat.lt_floor_add_one y
  rw [roundHalfEven_eq hy, abs_le]
  split_ifs with hlow htie
  · constructor <;> linarith
  · rcases Nat.mod_two_eq_zero_or_one ⌊y⌋₊ with h | h <;> rw [h] <;> push_cast <;>
      constructor <;> linarith
  · push_cast
    constructor <;> linarith

end Whole

/-! ## §2 — the order of patterns -/

section Order

variable {q q' : ℚ}

theorem unitExponent_mono (hq : 0 < q) (h : q ≤ q') : unitExponent q ≤ unitExponent q' := by
  have hlog : Int.log 2 q ≤ Int.log 2 q' := Int.log_mono_right hq h
  unfold unitExponent
  omega

theorem nearestBits_mono (hq : 0 < q) (h : q ≤ q') : nearestBits q ≤ nearestBits q' := by
  have hunit := unitExponent_mono hq h
  have hlow := neg_le_unitExponent q
  unfold nearestBits unitBits
  rcases hunit.lt_or_eq with hlt | heq
  -- a coarser unit comes with fifty-three bits
  · have hr := roundedUnits_le q
    have hr' := le_roundedUnits (hq.trans_le h) (by omega)
    omega
  · rw [← heq]
    have hround := roundHalfEven_mono (div_nonneg hq.le (two_zpow_pos (unitExponent q)).le)
      (div_le_div_of_nonneg_right h (two_zpow_pos (unitExponent q)).le)
    omega

theorem nearestBits_le (q : ℚ) : nearestBits q ≤ 2047 * 2 ^ 52 := min_le_right _ _

/-- The place of the double nearest to a number that is not below zero. -/
def nearestRank (q : ℚ) : Int := if q = 0 then 0 else nearestBits q

theorem nearestRank_zero : nearestRank 0 = 0 := if_pos rfl

theorem nearestRank_of_pos (hq : 0 < q) : nearestRank q = nearestBits q := if_neg hq.ne'

theorem nearestRank_nonneg (q : ℚ) : 0 ≤ nearestRank q := by
  unfold nearestRank
  split <;> omega

theorem nearestRank_le (q : ℚ) : nearestRank q ≤ 2047 * 2 ^ 52 := by
  have hle := nearestBits_le q
  unfold nearestRank
  split <;> omega

/-- **Rounding keeps the order.** -/
theorem nearestRank_mono (hq : 0 ≤ q) (h : q ≤ q') : nearestRank q ≤ nearestRank q' := by
  rcases hq.lt_or_eq with hpos | rfl
  · rw [nearestRank_of_pos hpos, nearestRank_of_pos (hpos.trans_le h)]
    exact_mod_cast nearestBits_mono hpos h
  · rw [nearestRank_zero]
    exact nearestRank_nonneg q'

/-- Numbers far below the largest double do not round to the infinity. -/
theorem nearestRank_lt (hq : 0 ≤ q) (h : q ≤ 2 ^ 64) : nearestRank q < 2047 * 2 ^ 52 := by
  rcases hq.lt_or_eq with hpos | rfl
  · have hlog : Int.log 2 q < 65 := by
      refine (Int.lt_zpow_iff_log_lt one_lt_two hpos).mp ?_
      refine lt_of_le_of_lt h ?_
      norm_num
    have hr := roundedUnits_le q
    have hunit : unitExponent q ≤ 12 := by
      unfold unitExponent
      omega
    rw [nearestRank_of_pos hpos]
    unfold nearestBits unitBits
    omega
  · rw [nearestRank_zero]
    decide

end Order

/-! ## §3 — finite doubles that are not below zero -/

/-- Finite and not below zero, `-0` included. -/
def IsMagnitude (x : Float) : Prop := 0 ≤ rank x ∧ rank x < 2047 * 2 ^ 52

section Magnitude

variable {x y : Float} {q : ℚ}

theorem rank_of_lt (h : x.toBits.toNat < 2 ^ 63) : rank x = x.toBits.toNat := if_pos h

theorem IsMagnitude.unpack (hx : IsMagnitude x) :
    (∃ s, x.toModel.unpack = .zero s) ∨
      ∃ m e hm, x.toModel.unpack = .finite .positive m e hm := by
  obtain ⟨hlow, hhigh⟩ := hx
  have henc := encodes_toBits x
  have hfields := toNat_eq_fields x.toBits
  have hword := x.toBits.toNat_lt
  have hsign : wordSign x.toBits = .positive ∨
      wordExponent x.toBits = 0 ∧ wordFraction x.toBits = 0 := by
    rw [wordSign_eq_positive]
    unfold rank at hlow
    unfold wordExponent wordFraction
    omega
  have hexp : wordExponent x.toBits < 2047 := by
    unfold rank at hlow hhigh
    unfold wordExponent
    omega
  generalize x.toModel.unpack = f at henc ⊢
  cases henc with
  | infinity he _ => omega
  | notANumber he _ => omega
  | zero => exact .inl ⟨_, rfl⟩
  | subnormal _ hm =>
    rw [hsign.resolve_right (by omega)]
    exact .inr ⟨_, _, _, rfl⟩
  | normal h0 _ hm =>
    rw [hsign.resolve_right (by omega)]
    exact .inr ⟨_, _, _, rfl⟩

theorem not_isNaN_of_rank (h : 0 ≤ rank x) (h' : rank x ≤ 2047 * 2 ^ 52) : x.isNaN = false := by
  have henc := encodes_toBits x
  show x.toModel.unpack.isNaN = false
  generalize x.toModel.unpack = f at henc ⊢
  cases henc with
  | notANumber he hm =>
    unfold wordExponent at he
    unfold wordFraction at hm
    unfold rank at h h'
    omega
  | _ => rfl

theorem IsMagnitude.not_isNaN (hx : IsMagnitude x) : x.isNaN = false :=
  not_isNaN_of_rank hx.1 hx.2.le

theorem IsMagnitude.isFinite (hx : IsMagnitude x) : x.isFinite = true := by
  show x.toModel.unpack.isFinite = true
  rcases hx.unpack with ⟨s, hu⟩ | ⟨m, e, hm, hu⟩
  · rw [hu]
    rfl
  · rw [hu]
    rfl

theorem rank_of_zero {s : Sign} (hx : x.toModel.unpack = .zero s) : rank x = 0 := by
  have hnan : x.isNaN = false := by
    show x.toModel.unpack.isNaN = false
    rw [hx]
    rfl
  rw [← place_eq_rank hnan, hx]
  rfl

theorem rank_of_positive {m : Nat} {e : Int} {hm : 0 < m}
    (hx : x.toModel.unpack = .finite .positive m e hm) : rank x = nearestBits (m * 2 ^ e) := by
  have hbits := toNat_toBits_of_unpack hx
  have hle := nearestBits_le (m * 2 ^ e)
  rw [rank_of_lt (by omega), hbits]

theorem value_pos_of_positive {m : Nat} {e : Int} {hm : 0 < m}
    (hx : x.toModel.unpack = .finite .positive m e hm) : 0 < value x := by
  rw [value_of_positive hx]
  exact mul_pos (Nat.cast_pos.mpr hm) (two_zpow_pos e)

theorem IsMagnitude.value_nonneg (hx : IsMagnitude x) : 0 ≤ value x := by
  rcases hx.unpack with ⟨s, hu⟩ | ⟨m, e, hm, hu⟩
  · exact (value_of_zero hu).ge
  · exact (value_pos_of_positive hu).le

theorem IsMagnitude.value_pos (hx : IsMagnitude x) (h : 0 < rank x) : 0 < value x := by
  rcases hx.unpack with ⟨s, hu⟩ | ⟨m, e, hm, hu⟩
  · rw [rank_of_zero hu] at h
    exact absurd h (lt_irrefl 0)
  · exact value_pos_of_positive hu

/-- **A double is the nearest to its value.** -/
theorem IsMagnitude.rank_eq (hx : IsMagnitude x) : rank x = nearestRank (value x) := by
  rcases hx.unpack with ⟨s, hu⟩ | ⟨m, e, hm, hu⟩
  · rw [rank_of_zero hu, value_of_zero hu, nearestRank_zero]
  · rw [nearestRank_of_pos (value_pos_of_positive hu), rank_of_positive hu, value_of_positive hu]

/-- What has the place of zero is zero. -/
theorem IsMagnitude.value_eq_zero (hx : IsMagnitude x) (h : rank x = 0) : value x = 0 := by
  rcases hx.unpack with ⟨s, hu⟩ | ⟨m, e, hm, hu⟩
  · exact value_of_zero hu
  · have hcanonical := (encodes_toBits x).isCanonical
    have hplace := place_eq_rank hx.not_isNaN
    rw [hu] at hcanonical hplace
    obtain ⟨-, he, -, -⟩ := hcanonical
    simp only [place, Sign.apply] at hplace
    omega

theorem isMagnitude_of_rank_le (hx : 0 ≤ rank x) (hy : IsMagnitude y) (h : rank x ≤ rank y) :
    IsMagnitude x := ⟨hx, h.trans_lt hy.2⟩

/-- **Doubles are ordered as their values.** -/
theorem value_le_iff (hx : IsMagnitude x) (hy : IsMagnitude y) :
    value x ≤ value y ↔ rank x ≤ rank y := by
  constructor
  · intro h
    rw [hx.rank_eq, hy.rank_eq]
    exact nearestRank_mono hx.value_nonneg h
  · intro h
    by_contra! hlt
    have hge : rank y ≤ rank x := by
      rw [hx.rank_eq, hy.rank_eq]
      exact nearestRank_mono hy.value_nonneg hlt.le
    have heq : rank x = rank y := h.antisymm hge
    by_cases h0 : rank x = 0
    · have hpos := hy.value_nonneg.trans_lt hlt
      rw [hx.value_eq_zero h0] at hpos
      exact hpos.false
    · rw [eq_of_rank_eq heq h0] at hlt
      exact hlt.false

theorem value_lt_iff (hx : IsMagnitude x) (hy : IsMagnitude y) :
    value x < value y ↔ rank x < rank y := by
  rw [← not_le, ← not_le, value_le_iff hy hx]

theorem le_iff_value (hx : IsMagnitude x) (hy : IsMagnitude y) : x ≤ y ↔ value x ≤ value y := by
  rw [le_iff_rank hx.not_isNaN hy.not_isNaN, value_le_iff hx hy]

theorem lt_iff_value (hx : IsMagnitude x) (hy : IsMagnitude y) : x < y ↔ value x < value y := by
  rw [lt_iff_rank hx.not_isNaN hy.not_isNaN, value_lt_iff hx hy]

theorem value_eq_of_rank_eq (hx : IsMagnitude x) (hy : IsMagnitude y) (h : rank x = rank y) :
    value x = value y :=
  le_antisymm ((value_le_iff hx hy).mpr h.le) ((value_le_iff hy hx).mpr h.ge)

end Magnitude

/-! ## §4 — rounded numbers -/

/-- A double that is the nearest to a number. -/
structure IsRounded (z : Float) (q : ℚ) : Prop where
  isMagnitude : IsMagnitude z
  nonneg : 0 ≤ q
  rank_eq : rank z = nearestRank q

section Rounded

variable {z z' : Float} {q q' : ℚ}

theorem IsMagnitude.isRounded (h : IsMagnitude z) : IsRounded z (value z) :=
  ⟨h, h.value_nonneg, h.rank_eq⟩

theorem IsRounded.mono (h : IsRounded z q) (h' : IsRounded z' q') (hle : q ≤ q') :
    value z ≤ value z' := by
  rw [value_le_iff h.isMagnitude h'.isMagnitude, h.rank_eq, h'.rank_eq]
  exact nearestRank_mono h.nonneg hle

theorem IsRounded.value_eq (h : IsRounded z q) (h' : IsRounded z' q) : value z = value z' :=
  le_antisymm (h.mono h' le_rfl) (h'.mono h le_rfl)

/-- Below a double rounding does not reach the infinity. -/
theorem isRounded_of_le (h : rank z = nearestRank q) (hq : 0 ≤ q) (h' : IsRounded z' q')
    (hle : q ≤ q') : IsRounded z q := by
  refine ⟨⟨?_, ?_⟩, hq, h⟩
  · rw [h]
    exact nearestRank_nonneg q
  · rw [h]
    exact (nearestRank_mono hq hle).trans_lt (h'.rank_eq ▸ h'.isMagnitude.2)

/-- A rounded number by the units of its last place. -/
theorem IsRounded.value_eq_units (h : IsRounded z q) (hq : 0 < q) :
    value z = roundHalfEven (q / 2 ^ unitExponent q) * 2 ^ unitExponent q := by
  obtain ⟨⟨hlow, hhigh⟩, -, hrank⟩ := h
  have hr := roundedUnits_le q
  have hunit := neg_le_unitExponent q
  have hr' : unitExponent q = -1074 ∨ 2 ^ 52 ≤ roundHalfEven (q / 2 ^ unitExponent q) := by
    by_cases he : unitExponent q = -1074
    · exact .inl he
    · exact .inr (le_roundedUnits hq he)
  rw [nearestRank_of_pos hq] at hrank
  unfold nearestBits unitBits at hrank
  generalize roundHalfEven (q / 2 ^ unitExponent q) = r at hrank hr hr' ⊢
  generalize unitExponent q = u at hrank hunit hr' ⊢
  rcases IsMagnitude.unpack ⟨hlow, hhigh⟩ with ⟨s, hu⟩ | ⟨m, e, hm, hu⟩
  · rw [rank_of_zero hu] at hrank
    rw [value_of_zero hu, show r = 0 by omega, Nat.cast_zero, zero_mul]
  · have hcanonical := (encodes_toBits z).isCanonical
    have hplace := place_eq_rank (IsMagnitude.not_isNaN ⟨hlow, hhigh⟩)
    rw [hu] at hcanonical hplace
    obtain ⟨hm', he, -, he'⟩ := hcanonical
    simp only [place, Sign.apply] at hplace
    rw [value_of_positive hu]
    have hcarry : e = u ∧ m = r ∨ e = u + 1 ∧ m = 2 ^ 52 ∧ r = 2 ^ 53 := by omega
    rcases hcarry with ⟨rfl, rfl⟩ | ⟨rfl, rfl, rfl⟩
    · rfl
    · rw [zpow_add_one₀ two_ne_zero]
      push_cast
      ring

/-- **Rounding moves a number by half a unit at most.** -/
theorem IsRounded.abs_sub_le (h : IsRounded z q) (hq : 0 < q) :
    |value z - q| ≤ 2 ^ unitExponent q / 2 := by
  have hunit := two_zpow_pos (unitExponent q)
  have hround := abs_roundHalfEven_sub_le (div_pos hq hunit).le
  rw [h.value_eq_units hq]
  calc |(roundHalfEven (q / 2 ^ unitExponent q) : ℚ) * 2 ^ unitExponent q - q|
      = |(roundHalfEven (q / 2 ^ unitExponent q) : ℚ) - q / 2 ^ unitExponent q| *
          2 ^ unitExponent q := by
        rw [← abs_of_pos hunit, ← abs_mul, abs_of_pos hunit, sub_mul,
          div_mul_cancel₀ _ hunit.ne']
    _ ≤ 1 / 2 * 2 ^ unitExponent q := mul_le_mul_of_nonneg_right hround hunit.le
    _ = 2 ^ unitExponent q / 2 := by ring

/-- Up to fifty-three bits are a whole number of units. -/
theorem exists_units {n : Nat} {t : Int} (hn : 0 < n) (hn' : n ≤ 2 ^ 53) (ht : -1074 ≤ t) :
    ∃ r : Nat, (n : ℚ) * 2 ^ t / 2 ^ unitExponent (n * 2 ^ t) = r := by
  have hunit : unitExponent (n * 2 ^ t) = max (n.log2 + t - 52) (-1074) := by
    unfold unitExponent
    rw [log_mul_zpow hn]
  rcases hn'.lt_or_eq with hlt | rfl
  · have hlog := (Nat.log2_lt hn.ne').mpr hlt
    obtain ⟨k, hk⟩ : ∃ k : Nat, t = unitExponent (n * 2 ^ t) + k :=
      ⟨(t - unitExponent (n * 2 ^ t)).toNat, by omega⟩
    refine ⟨n * 2 ^ k, ?_⟩
    generalize unitExponent (n * 2 ^ t) = u at hk ⊢
    have hu := (two_zpow_pos u).ne'
    rw [hk, zpow_add₀ two_ne_zero, zpow_natCast]
    push_cast
    field_simp
  -- the first number with fifty-four bits is even
  · rw [Nat.log2_two_pow] at hunit
    refine ⟨2 ^ 52, ?_⟩
    have ht' := (two_zpow_pos t).ne'
    rw [show unitExponent ((2 ^ 53 : Nat) * 2 ^ t) = t + 1 by omega, zpow_add_one₀ two_ne_zero]
    push_cast
    field_simp
    norm_num

/-- **Up to fifty-three bits are not rounded.** -/
theorem IsRounded.value_eq_self {n : Nat} {t : Int} (h : IsRounded z (n * 2 ^ t))
    (hn : n ≤ 2 ^ 53) (ht : -1074 ≤ t) : value z = n * 2 ^ t := by
  rcases Nat.eq_zero_or_pos n with rfl | hpos
  · have hrank := h.rank_eq
    rw [Nat.cast_zero, zero_mul] at hrank ⊢
    exact h.isMagnitude.value_eq_zero (hrank.trans nearestRank_zero)
  · obtain ⟨r, hr⟩ := exists_units hpos hn ht
    rw [h.value_eq_units (mul_pos (Nat.cast_pos.mpr hpos) (two_zpow_pos t)), hr,
      roundHalfEven_natCast, ← hr, div_mul_cancel₀ _ (two_zpow_pos _).ne']

end Rounded

/-! ## §5 — arithmetic -/

/-- What an operation packs. -/
theorem rank_ofModel_pack {f : Float.Model.UnpackedFloat} {q : ℚ} (hq : 0 < q)
    (h : (packed f).toNat = nearestBits q) : rank (.ofModel (.pack f)) = nearestRank q := by
  have hle := nearestBits_le q
  have hbits : (Float.ofModel (.pack f)).toBits.toNat = nearestBits q := h
  rw [nearestRank_of_pos hq, rank_of_lt (by omega), hbits]

theorem rank_ofModel_pack_zero (s : Sign) : rank (.ofModel (.pack (.zero s))) = nearestRank 0 := by
  rw [nearestRank_zero]
  cases s <;> rfl

theorem rank_ofModel_pack_unpack {x : Float} (hx : IsMagnitude x) :
    rank (.ofModel (.pack x.toModel.unpack)) = nearestRank (value x) := by
  rw [← hx.rank_eq]
  congr 1
  apply Float.toBits_inj.mp
  exact packed_unpack (isNumber_of_not_isNaN hx.not_isNaN)

theorem rank_ofModel_pack_normalize (m : Nat) (e : Int) :
    rank (.ofModel (.pack (Float.Model.UnpackedFloat.normalize binary64 m e .positive))) =
      nearestRank (m * 2 ^ e) := by
  rcases Nat.eq_zero_or_pos m with rfl | hm
  · rw [Nat.cast_zero, Nat.cast_zero, zero_mul]
    exact rank_ofModel_pack_zero .positive
  · exact rank_ofModel_pack (mul_pos (Nat.cast_pos.mpr hm) (two_zpow_pos e))
      (toNat_packed_normalize hm e)

/-- Two numbers are brought to one exponent before they are added. -/
theorem mul_zpow_eq_shiftLeft {m : Nat} {e f : Int} (h : f ≤ e) :
    (m : ℚ) * 2 ^ e = (m <<< (e - f).toNat : Nat) * 2 ^ f := by
  obtain ⟨k, rfl⟩ : ∃ k : Nat, e = f + k := ⟨(e - f).toNat, by omega⟩
  rw [Nat.shiftLeft_eq, zpow_add₀ two_ne_zero, zpow_natCast, show (f + k - f).toNat = k by omega]
  push_cast
  ring

section Arithmetic

variable {x y : Float}

/-- **Sums are rounded correctly.** -/
theorem rank_add (hx : IsMagnitude x) (hy : IsMagnitude y) :
    rank (x + y) = nearestRank (value x + value y) := by
  show rank (.ofModel (.pack (Float.Model.UnpackedFloat.add binary64 x.toModel.unpack
    y.toModel.unpack))) = _
  rcases hx.unpack with ⟨s, hu⟩ | ⟨m, e, hm, hu⟩ <;> rcases hy.unpack with ⟨t, hv⟩ | ⟨n, f, hn, hv⟩
  · rw [value_of_zero hu, value_of_zero hv, hu, hv, add_zero]
    cases s <;> cases t <;> exact rank_ofModel_pack_zero _
  · rw [value_of_zero hu, zero_add, ← rank_ofModel_pack_unpack hy, hu, hv]
    rfl
  · rw [value_of_zero hv, add_zero, ← rank_ofModel_pack_unpack hx, hu, hv]
    rfl
  · rw [value_of_positive hu, value_of_positive hv, hu, hv,
      mul_zpow_eq_shiftLeft (min_le_left e f), mul_zpow_eq_shiftLeft (min_le_right e f), ← add_mul,
      ← Nat.cast_add, ← rank_ofModel_pack_normalize, Nat.cast_add]
    rfl

/-- **Differences are rounded correctly**, as long as they are not below zero. -/
theorem rank_sub (hx : IsMagnitude x) (hy : IsMagnitude y) (h : value y ≤ value x) :
    rank (x - y) = nearestRank (value x - value y) := by
  show rank (.ofModel (.pack (Float.Model.UnpackedFloat.sub binary64 x.toModel.unpack
    y.toModel.unpack))) = _
  rcases hx.unpack with ⟨s, hu⟩ | ⟨m, e, hm, hu⟩ <;> rcases hy.unpack with ⟨t, hv⟩ | ⟨n, f, hn, hv⟩
  · rw [value_of_zero hu, value_of_zero hv, hu, hv, sub_zero]
    cases s <;> cases t <;> exact rank_ofModel_pack_zero _
  · have hpos := value_pos_of_positive hv
    rw [value_of_zero hu] at h
    exact absurd h hpos.not_ge
  · rw [value_of_zero hv, sub_zero, ← rank_ofModel_pack_unpack hx, hu, hv]
    rfl
  · rw [value_of_positive hu, value_of_positive hv, mul_zpow_eq_shiftLeft (min_le_left e f),
      mul_zpow_eq_shiftLeft (min_le_right e f)] at h ⊢
    have hle : n <<< (f - min e f).toNat ≤ m <<< (e - min e f).toNat := by
      exact_mod_cast le_of_mul_le_mul_right h (two_zpow_pos _)
    rw [hu, hv, ← sub_mul, ← Nat.cast_sub hle, ← rank_ofModel_pack_normalize, Nat.cast_sub hle]
    rfl

/-- **Products are rounded correctly.** -/
theorem rank_mul (hx : IsMagnitude x) (hy : IsMagnitude y) :
    rank (x * y) = nearestRank (value x * value y) := by
  show rank (.ofModel (.pack (Float.Model.UnpackedFloat.mul binary64 x.toModel.unpack
    y.toModel.unpack))) = _
  rcases hx.unpack with ⟨s, hu⟩ | ⟨m, e, hm, hu⟩ <;> rcases hy.unpack with ⟨t, hv⟩ | ⟨n, f, hn, hv⟩
  · rw [value_of_zero hu, hu, hv, zero_mul]
    exact rank_ofModel_pack_zero _
  · rw [value_of_zero hu, hu, hv, zero_mul]
    exact rank_ofModel_pack_zero _
  · rw [value_of_zero hv, hu, hv, mul_zero]
    exact rank_ofModel_pack_zero _
  · have hpos := mul_pos (value_pos_of_positive hu) (value_pos_of_positive hv)
    rw [value_of_positive hu, value_of_positive hv] at hpos ⊢
    rw [hu, hv]
    have hcx := (encodes_toBits x).isCanonical
    have hcy := (encodes_toBits y).isCanonical
    rw [hu] at hcx
    rw [hv] at hcy
    obtain ⟨-, he, -, he'⟩ := hcx
    obtain ⟨-, hf, -, hf'⟩ := hcy
    refine rank_ofModel_pack hpos (toNat_packed_mul hm hn ?_)
    -- two subnormal numbers have a very small exponent, and otherwise one factor has all bits
    rcases he' with rfl | he'
    · rcases hf' with rfl | hf'
      · exact .inl (by decide)
      · exact .inr (hf'.trans (Nat.le_mul_of_pos_left n hm))
    · exact .inr (he'.trans (Nat.le_mul_of_pos_right m hn))

/-- **Quotients are rounded correctly.** -/
theorem rank_div (hx : IsMagnitude x) (hy : IsMagnitude y) (h : 0 < value y) :
    rank (x / y) = nearestRank (value x / value y) := by
  show rank (.ofModel (.pack (Float.Model.UnpackedFloat.div binary64 x.toModel.unpack
    y.toModel.unpack))) = _
  rcases hy.unpack with ⟨t, hv⟩ | ⟨n, f, hn, hv⟩
  · rw [value_of_zero hv] at h
    exact absurd h (lt_irrefl 0)
  · rcases hx.unpack with ⟨s, hu⟩ | ⟨m, e, hm, hu⟩
    · rw [value_of_zero hu, hu, hv, zero_div]
      exact rank_ofModel_pack_zero _
    · have hpos := div_pos (value_pos_of_positive hu) h
      rw [value_of_positive hu, value_of_positive hv] at hpos ⊢
      rw [hu, hv]
      exact rank_ofModel_pack hpos (toNat_packed_div hm hn)

theorem IsMagnitude.exists_smallest_units (hx : IsMagnitude x) :
    ∃ n : Nat, value x = n * 2 ^ (-1074 : Int) := by
  rcases hx.unpack with ⟨s, hu⟩ | ⟨m, e, hm, hu⟩
  · exact ⟨0, by rw [value_of_zero hu, Nat.cast_zero, zero_mul]⟩
  · have hcanonical := (encodes_toBits x).isCanonical
    rw [hu] at hcanonical
    obtain ⟨-, he, -, -⟩ := hcanonical
    exact ⟨_, (value_of_positive hu).trans (mul_zpow_eq_shiftLeft he)⟩

theorem nearestRank_smallest : nearestRank (2 ^ (-1074 : Int)) = 1 := by
  have hbits := nearestBits_mul_zpow (r := 1) (e := -1074) one_pos (by decide) le_rfl (.inl rfl)
  rw [Nat.cast_one, one_mul] at hbits
  rw [nearestRank_of_pos (two_zpow_pos _), hbits]
  rfl

theorem nearestRank_pos {q : ℚ} (h : 2 ^ (-1074 : Int) ≤ q) : 0 < nearestRank q := by
  have hmono := nearestRank_mono (two_zpow_pos _).le h
  rw [nearestRank_smallest] at hmono
  omega

/-- Different doubles have a difference: the smallest unit is that of all doubles. -/
theorem rank_sub_pos (hx : IsMagnitude x) (hy : IsMagnitude y) (h : value y < value x) :
    0 < rank (x - y) := by
  obtain ⟨m, hm⟩ := hx.exists_smallest_units
  obtain ⟨n, hn⟩ := hy.exists_smallest_units
  have hunit := two_zpow_pos (-1074)
  have hlt : n < m := by
    rw [hm, hn] at h
    exact_mod_cast lt_of_mul_lt_mul_right h hunit.le
  have hle : (2 : ℚ) ^ (-1074 : Int) ≤ value x - value y := by
    rw [hm, hn, ← sub_mul]
    refine le_mul_of_one_le_left hunit.le ?_
    have hone : (n : ℚ) + 1 ≤ m := by exact_mod_cast hlt
    linarith
  rw [rank_sub hx hy h.le]
  exact nearestRank_pos hle

/-- **What is taken from a greater double leaves something.** -/
theorem sub_pos_of_lt (hx : IsMagnitude x) (hy : IsMagnitude y) (h : y < x) : 0.0 < x - y := by
  have hvalue := (lt_iff_value hy hx).mp h
  have hrank := rank_sub hx hy hvalue.le
  have hnan : (x - y).isNaN = false :=
    not_isNaN_of_rank (hrank ▸ nearestRank_nonneg _) (hrank ▸ nearestRank_le _)
  exact (pos_iff_rank hnan).mpr (rank_sub_pos hx hy hvalue)

end Arithmetic

/-! ## §6 — whole numbers -/

section Counts

variable {n : Nat}

theorem rank_ofNat (n : Nat) : rank (Float.ofNat n) = nearestRank n := by
  rcases Nat.eq_zero_or_pos n with rfl | hn
  · rw [Nat.cast_zero, nearestRank_zero]
    rfl
  · have hbits : (Float.ofNat n).toBits.toNat = nearestBits n := by
      have h := Decimal.toNat_toBits_ofScientific hn.ne' false 0
      rw [if_neg Bool.false_ne_true, show Int.ofNat 0 = 0 from rfl, zpow_zero, mul_one] at h
      exact h
    have hle := nearestBits_le n
    rw [nearestRank_of_pos (Nat.cast_pos.mpr hn), rank_of_lt (by omega), hbits]

theorem not_isNaN_ofNat (n : Nat) : (Float.ofNat n).isNaN = false := by
  apply not_isNaN_of_rank
  · rw [rank_ofNat]
    exact nearestRank_nonneg _
  · rw [rank_ofNat]
    exact nearestRank_le _

/-- Counts of something are positive, even those beyond the largest double. -/
theorem ofNat_pos (hn : 0 < n) : 0.0 < Float.ofNat n := by
  rw [pos_iff_rank (not_isNaN_ofNat n), rank_ofNat]
  refine nearestRank_pos ((zpow_le_one_of_nonpos₀ one_le_two (by decide)).trans ?_)
  exact_mod_cast hn

theorem isMagnitude_ofNat (h : n ≤ 2 ^ 64) : IsMagnitude (Float.ofNat n) := by
  rw [IsMagnitude, rank_ofNat]
  exact ⟨nearestRank_nonneg _, nearestRank_lt (Nat.cast_nonneg n) (by exact_mod_cast h)⟩

theorem isRounded_ofNat (h : n ≤ 2 ^ 64) : IsRounded (Float.ofNat n) n :=
  ⟨isMagnitude_ofNat h, Nat.cast_nonneg n, rank_ofNat n⟩

/-- **Words become the nearest doubles.** -/
theorem isRounded_toFloat (n : UInt64) : IsRounded n.toFloat n.toNat := by
  have hle : (n.toNat : ℚ) ≤ (2 ^ 64 : Nat) := Nat.cast_le.mpr n.toNat_lt.le
  refine isRounded_of_le ?_ (Nat.cast_nonneg _) (isRounded_ofNat le_rfl) hle
  by_cases hn : n = 0
  · rw [hn, show (0 : UInt64).toNat = 0 from rfl, Nat.cast_zero, nearestRank_zero]
    rfl
  · have hpos : 0 < n.toNat := Nat.pos_of_ne_zero fun h => hn (UInt64.toNat.inj h)
    have hbits := toNat_toBits_toFloat hn
    have hbound := nearestBits_le (n.toNat : ℚ)
    rw [nearestRank_of_pos (Nat.cast_pos.mpr hpos), rank_of_lt (by omega), hbits]

/-- **Whole numbers of fifty-three bits are not rounded.** -/
theorem IsRounded.value_natCast {z : Float} (h : IsRounded z n) (hn : n ≤ 2 ^ 53) :
    value z = n := by
  have hself : value z = n * 2 ^ (0 : Int) :=
    IsRounded.value_eq_self (by rwa [zpow_zero, mul_one]) hn (by decide)
  rwa [zpow_zero, mul_one] at hself

theorem value_ofNat (h : n ≤ 2 ^ 53) : value (Float.ofNat n) = n :=
  (isRounded_ofNat (h.trans (by decide))).value_natCast h

theorem value_ofNat_pos (hn : 0 < n) (h : n ≤ 2 ^ 64) : 0 < value (Float.ofNat n) := by
  have hmag := isMagnitude_ofNat h
  exact hmag.value_pos ((pos_iff_rank hmag.not_isNaN).mp (ofNat_pos hn))

theorem ofNat_div_self (hn : 0 < n) (h : n ≤ 2 ^ 64) : Float.ofNat n / Float.ofNat n = 1.0 := by
  have hmag := isMagnitude_ofNat h
  have hpos := value_ofNat_pos hn h
  have hrank : rank (Float.ofNat n / Float.ofNat n) = rank 1.0 := by
    rw [rank_div hmag hmag hpos, div_self hpos.ne', ← Nat.cast_one, ← rank_ofNat]
    decide +kernel
  exact eq_of_rank_eq hrank (by rw [hrank]; decide)

/-- What is at most one is rounded to at most one. -/
theorem IsRounded.value_le_one {z : Float} {q : ℚ} (h : IsRounded z q) (hle : q ≤ 1) :
    value z ≤ 1 := by
  have hone := h.mono (isRounded_ofNat (n := 1) (by decide)) (by exact_mod_cast hle)
  rwa [value_ofNat (by decide), Nat.cast_one] at hone

end Counts

end WorkloadSynth.Double
