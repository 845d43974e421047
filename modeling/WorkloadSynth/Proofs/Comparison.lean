import WorkloadSynth.Proofs.Double

/-!
# Comparing doubles

Doubles are compared field by field: signs first, then exponents, then mantissas.  All of it is one
comparison of whole numbers (`compare_eq`): the pattern of a double without its sign counts the
doubles between zero and itself, and `rank` puts the sign back.  Only the NaN has no place in this
order, and only the two zeros share one.
-/

namespace WorkloadSynth.Double

open Float.Model.UnpackedFloat Float.Model.Format

/-! ## §1 — the place of a number -/

/-- How many doubles lie between zero and a number, with the sign of the number. -/
def rank (x : Float) : Int :=
  if x.toBits.toNat < 2 ^ 63 then x.toBits.toNat else 2 ^ 63 - x.toBits.toNat

/-- The place of an unpacked number. -/
def place : Float.Model.UnpackedFloat → Int
  | .notANumber => 0
  | .infinity s => s.apply (2047 * 2 ^ 52)
  | .zero _ => 0
  | .finite s m e _ => s.apply ((e + 1074) * 2 ^ 52 + m)

/-- The mantissa and the exponent that the format gives to a number. -/
def IsCanonical : Float.Model.UnpackedFloat → Prop
  | .finite _ m e _ => m < 2 ^ 53 ∧ -1074 ≤ e ∧ e ≤ 971 ∧ (e = -1074 ∨ 2 ^ 52 ≤ m)
  | _ => True

section Fields

variable {w : UInt64} {f : Float.Model.UnpackedFloat}

theorem Encodes.isCanonical (h : Encodes w f) : IsCanonical f := by
  have hfraction := wordFraction_lt w
  cases h with
  | infinity => trivial
  | notANumber => trivial
  | zero => trivial
  | subnormal he hm => exact ⟨by omega, by omega, by omega, .inl rfl⟩
  | normal h0 he hm => exact ⟨by omega, by omega, by omega, .inr (by omega)⟩

theorem Encodes.place_eq (h : Encodes w f) (hf : f.isNaN = false) :
    place f = if w.toNat < 2 ^ 63 then (w.toNat : Int) else 2 ^ 63 - w.toNat := by
  have hfields := toNat_eq_fields w
  have hexponent := wordExponent_lt w
  have hfraction := wordFraction_lt w
  have hplace : place f = (wordSign w).apply (wordExponent w * 2 ^ 52 + wordFraction w) := by
    cases h with
    | infinity he hm => simp [place, he, hm]
    | notANumber => cases hf
    | zero he hm => cases hs : wordSign w <;> simp [place, he, hm, Sign.apply]
    | subnormal he hm => simp [place, he]
    | normal h0 he hm =>
      show (wordSign w).apply (((wordExponent w : Int) - 1075 + 1074) * 2 ^ 52 +
        ((wordFraction w + 2 ^ 52 : Nat) : Int)) = _
      rw [show ((wordExponent w : Int) - 1075 + 1074) * 2 ^ 52 +
        ((wordFraction w + 2 ^ 52 : Nat) : Int) = wordExponent w * 2 ^ 52 + wordFraction w by omega]
  rw [hplace]
  -- the pattern is the magnitude behind the sign bit
  cases hs : wordSign w with
  | positive =>
    rw [hs] at hfields
    simp only [Sign.toBitVec, Sign.apply] at hfields ⊢
    simp at hfields
    omega
  | negative =>
    rw [hs] at hfields
    simp only [Sign.toBitVec, Sign.apply] at hfields ⊢
    simp at hfields
    omega

end Fields

/-! ## §2 — comparing places -/

theorem compare_of_lt {i j : Int} (h : i < j) : compare i j = .lt := Int.compare_eq_lt.mpr h

theorem compare_of_gt {i j : Int} (h : j < i) : compare i j = .gt := Int.compare_eq_gt.mpr h

theorem compare_neg (i j : Int) : compare (-i) (-j) = compare j i := by
  rcases lt_trichotomy i j with hlt | rfl | hgt
  · rw [compare_of_gt hlt, compare_of_gt (by omega)]
  · rw [Int.compare_eq_eq.mpr rfl, Int.compare_eq_eq.mpr rfl]
  · rw [compare_of_lt hgt, compare_of_lt (by omega)]

/-- Exponents decide before mantissas, which is what their joint pattern does. -/
theorem compare_magnitude {m n : Nat} {e f : Int} (hm : m < 2 ^ 53) (he : -1074 ≤ e)
    (hm' : e = -1074 ∨ 2 ^ 52 ≤ m) (hn : n < 2 ^ 53) (hf : -1074 ≤ f)
    (hn' : f = -1074 ∨ 2 ^ 52 ≤ n) :
    (compare e f).then (compare m n) =
      compare ((e + 1074) * 2 ^ 52 + m) ((f + 1074) * 2 ^ 52 + (n : Int)) := by
  rcases lt_trichotomy e f with hlt | rfl | hgt
  · rw [compare_of_lt hlt, compare_of_lt (by omega)]
    rfl
  · rw [Int.compare_eq_eq.mpr rfl]
    rcases lt_trichotomy m n with hlt | rfl | hgt
    · rw [Nat.compare_eq_lt.mpr hlt, compare_of_lt (by omega)]
      rfl
    · rw [Nat.compare_eq_eq.mpr rfl, Int.compare_eq_eq.mpr rfl]
      rfl
    · rw [Nat.compare_eq_gt.mpr hgt, compare_of_gt (by omega)]
      rfl
  · rw [compare_of_gt hgt, compare_of_gt (by omega)]
    rfl

/-- **Unpacked numbers are compared by their places.** -/
theorem compare_eq_place {f g : Float.Model.UnpackedFloat} (hf : IsCanonical f) (hg : IsCanonical g)
    (hfn : f.isNaN = false) (hgn : g.isNaN = false) :
    f.compare g = some (compare (place f) (place g)) := by
  cases f with
  | notANumber => cases hfn
  | infinity s =>
    cases g with
    | notANumber => cases hgn
    | infinity t => cases s <;> cases t <;> rfl
    | zero t => cases s <;> rfl
    | finite t n e hn =>
      obtain ⟨hn', he, he', -⟩ := hg
      cases s <;> cases t <;> simp only [Float.Model.UnpackedFloat.compare, place, Sign.apply]
      · rw [compare_of_lt (by omega)]
      · rw [compare_of_lt (by omega)]
      · rw [compare_of_gt (by omega)]
      · rw [compare_of_gt (by omega)]
  | zero s =>
    cases g with
    | notANumber => cases hgn
    | infinity t => cases t <;> rfl
    | zero t => rfl
    | finite t n e hn =>
      obtain ⟨hn', he, he', -⟩ := hg
      cases t <;> simp only [Float.Model.UnpackedFloat.compare, place, Sign.apply]
      · rw [compare_of_gt (by omega)]
      · rw [compare_of_lt (by omega)]
  | finite s m e hm =>
    obtain ⟨hm', he, he', hcanonical⟩ := hf
    cases g with
    | notANumber => cases hgn
    | infinity t =>
      cases s <;> cases t <;> simp only [Float.Model.UnpackedFloat.compare, place, Sign.apply]
      · rw [compare_of_gt (by omega)]
      · rw [compare_of_lt (by omega)]
      · rw [compare_of_gt (by omega)]
      · rw [compare_of_lt (by omega)]
    | zero t =>
      cases s <;> simp only [Float.Model.UnpackedFloat.compare, place, Sign.apply]
      · rw [compare_of_lt (by omega)]
      · rw [compare_of_gt (by omega)]
    | finite t n f hn =>
      obtain ⟨hn', hf, hf', hcanonical'⟩ := hg
      have hmagnitude := compare_magnitude hm' he hcanonical hn' hf hcanonical'
      cases s <;> cases t <;> simp only [Float.Model.UnpackedFloat.compare, place, Sign.apply]
      -- two negative numbers are compared the other way round
      · rw [hmagnitude, Int.compare_swap, compare_neg]
      · rw [compare_of_lt (by omega)]
      · rw [compare_of_gt (by omega)]
      · rw [hmagnitude]

/-! ## §3 — comparing doubles -/

section Doubles

variable {x y : Float}

theorem place_eq_rank (hx : x.isNaN = false) : place x.toModel.unpack = rank x :=
  (encodes_toBits x).place_eq hx

/-- **Doubles are compared by their ranks.** -/
theorem compare_eq (hx : x.isNaN = false) (hy : y.isNaN = false) :
    x.toModel.unpack.compare y.toModel.unpack = some (compare (rank x) (rank y)) := by
  rw [compare_eq_place (encodes_toBits x).isCanonical (encodes_toBits y).isCanonical hx hy,
    place_eq_rank hx, place_eq_rank hy]

/-- The NaN is not compared at all. -/
theorem not_isNaN_of_compare {o : Ordering}
    (h : x.toModel.unpack.compare y.toModel.unpack = some o) :
    x.isNaN = false ∧ y.isNaN = false := by
  show x.toModel.unpack.isNaN = false ∧ y.toModel.unpack.isNaN = false
  generalize x.toModel.unpack = f at h ⊢
  generalize y.toModel.unpack = g at h ⊢
  cases f with
  | notANumber => cases h
  | infinity s => cases g with
    | notANumber => cases h
    | _ => exact ⟨rfl, rfl⟩
  | zero s => cases g with
    | notANumber => cases h
    | _ => exact ⟨rfl, rfl⟩
  | finite s m e hm => cases g with
    | notANumber => cases s <;> cases h
    | _ => exact ⟨rfl, rfl⟩

theorem lt_iff : x < y ↔ (x.toModel.unpack.compare y.toModel.unpack == some .lt) = true :=
  decide_eq_true_iff

theorem le_iff :
    x ≤ y ↔ (x.toModel.unpack.compare y.toModel.unpack).any (·.isLE) = true :=
  decide_eq_true_iff

theorem lt_iff_rank (hx : x.isNaN = false) (hy : y.isNaN = false) : x < y ↔ rank x < rank y := by
  rw [lt_iff, compare_eq hx hy, beq_iff_eq, Option.some_inj, Int.compare_eq_lt]

theorem pos_iff_rank (hx : x.isNaN = false) : 0.0 < x ↔ 0 < rank x := lt_iff_rank (by decide) hx

theorem le_iff_rank (hx : x.isNaN = false) (hy : y.isNaN = false) : x ≤ y ↔ rank x ≤ rank y := by
  rw [le_iff, compare_eq hx hy, Option.any_some, Int.isLE_compare]

theorem beq_iff_rank (hx : x.isNaN = false) (hy : y.isNaN = false) :
    (x == y) = true ↔ rank x = rank y := by
  show (x.toModel.unpack.compare y.toModel.unpack == some .eq) = true ↔ _
  rw [compare_eq hx hy, beq_iff_eq, Option.some_inj, Int.compare_eq_eq]

theorem not_isNaN_of_lt (h : x < y) : x.isNaN = false ∧ y.isNaN = false :=
  not_isNaN_of_compare (beq_iff_eq.mp (lt_iff.mp h))

theorem not_isNaN_of_le (h : x ≤ y) : x.isNaN = false ∧ y.isNaN = false := by
  obtain ⟨o, ho, -⟩ := (Option.any_eq_true _ _).mp (le_iff.mp h)
  exact not_isNaN_of_compare ho

theorem not_isNaN_of_beq (h : (x == y) = true) : x.isNaN = false ∧ y.isNaN = false :=
  not_isNaN_of_compare (beq_iff_eq.mp h)

theorem beq_self (h : x.isNaN = false) : (x == x) = true := (beq_iff_rank h h).mpr rfl

theorem not_lt_iff (hx : x.isNaN = false) (hy : y.isNaN = false) : ¬ x < y ↔ y ≤ x := by
  rw [lt_iff_rank hx hy, le_iff_rank hy hx, not_lt]

theorem not_le_iff (hx : x.isNaN = false) (hy : y.isNaN = false) : ¬ x ≤ y ↔ y < x := by
  rw [le_iff_rank hx hy, lt_iff_rank hy hx, not_le]

protected theorem le_refl (hx : x.isNaN = false) : x ≤ x := (le_iff_rank hx hx).mpr le_rfl

protected theorem le_of_lt (h : x < y) : x ≤ y := by
  obtain ⟨hx, hy⟩ := not_isNaN_of_lt h
  exact (le_iff_rank hx hy).mpr ((lt_iff_rank hx hy).mp h).le

protected theorem le_trans {z : Float} (h : x ≤ y) (h' : y ≤ z) : x ≤ z := by
  obtain ⟨hx, hy⟩ := not_isNaN_of_le h
  obtain ⟨-, hz⟩ := not_isNaN_of_le h'
  exact (le_iff_rank hx hz).mpr (((le_iff_rank hx hy).mp h).trans ((le_iff_rank hy hz).mp h'))

protected theorem lt_of_lt_of_le {z : Float} (h : x < y) (h' : y ≤ z) : x < z := by
  obtain ⟨hx, hy⟩ := not_isNaN_of_lt h
  obtain ⟨-, hz⟩ := not_isNaN_of_le h'
  exact (lt_iff_rank hx hz).mpr
    (((lt_iff_rank hx hy).mp h).trans_le ((le_iff_rank hy hz).mp h'))

protected theorem lt_of_le_of_lt {z : Float} (h : x ≤ y) (h' : y < z) : x < z := by
  obtain ⟨hx, hy⟩ := not_isNaN_of_le h
  obtain ⟨-, hz⟩ := not_isNaN_of_lt h'
  exact (lt_iff_rank hx hz).mpr
    (((le_iff_rank hx hy).mp h).trans_lt ((lt_iff_rank hy hz).mp h'))

protected theorem lt_trans {z : Float} (h : x < y) (h' : y < z) : x < z :=
  Double.lt_of_lt_of_le h (Double.le_of_lt h')

protected theorem beq_symm (h : (x == y) = true) : (y == x) = true := by
  obtain ⟨hx, hy⟩ := not_isNaN_of_beq h
  exact (beq_iff_rank hy hx).mpr ((beq_iff_rank hx hy).mp h).symm

protected theorem beq_trans {z : Float} (h : (x == y) = true) (h' : (y == z) = true) :
    (x == z) = true := by
  obtain ⟨hx, hy⟩ := not_isNaN_of_beq h
  obtain ⟨-, hz⟩ := not_isNaN_of_beq h'
  exact (beq_iff_rank hx hz).mpr (((beq_iff_rank hx hy).mp h).trans ((beq_iff_rank hy hz).mp h'))

theorem lt_of_beq_of_lt {z : Float} (h : (z == x) = true) (h' : x < y) : z < y := by
  obtain ⟨hx, hy⟩ := not_isNaN_of_lt h'
  obtain ⟨hz, -⟩ := not_isNaN_of_beq h
  rw [lt_iff_rank hz hy, (beq_iff_rank hz hx).mp h]
  exact (lt_iff_rank hx hy).mp h'

theorem le_of_le_of_beq {z : Float} (h : x ≤ y) (h' : (z == y) = true) : x ≤ z := by
  obtain ⟨hx, hy⟩ := not_isNaN_of_le h
  obtain ⟨hz, -⟩ := not_isNaN_of_beq h'
  rw [le_iff_rank hx hz, (beq_iff_rank hz hy).mp h']
  exact (le_iff_rank hx hy).mp h

theorem le_of_beq_of_le {z : Float} (h : (z == x) = true) (h' : x ≤ y) : z ≤ y := by
  obtain ⟨hx, hy⟩ := not_isNaN_of_le h'
  obtain ⟨hz, -⟩ := not_isNaN_of_beq h
  rw [le_iff_rank hz hy, (beq_iff_rank hz hx).mp h]
  exact (le_iff_rank hx hy).mp h'

/-- Only zeros share their place. -/
theorem eq_of_rank_eq (h : rank x = rank y) (h0 : rank x ≠ 0) : x = y := by
  have hx := x.toBits.toNat_lt
  have hy := y.toBits.toNat_lt
  unfold rank at h h0
  apply Float.toBits_inj.mp
  apply UInt64.toNat.inj
  omega

theorem zero_div_of_pos (h : 0.0 < x) : 0.0 / x = 0.0 := by
  have hnonneg := nonNeg_of_pos h
  apply Float.toBits_inj.mp
  show packed (Float.Model.UnpackedFloat.div binary64 (0.0 : Float).toModel.unpack
    x.toModel.unpack) = packed (.zero .positive)
  rw [lt_iff] at h
  unfold NonNeg at hnonneg
  cases hu : x.toModel.unpack with
  | notANumber => rw [hu] at hnonneg; exact hnonneg.elim
  | infinity s => rw [hu] at hnonneg; cases hnonneg; rfl
  | zero s => rw [hu] at h; cases s <;> exact absurd h (by decide)
  | finite s m e hm => rw [hu] at hnonneg; cases hnonneg; rfl

end Doubles

end WorkloadSynth.Double
