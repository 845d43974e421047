import WorkloadSynth.Proofs.Comparison
import WorkloadSynth.Proofs.OutputShape
import WorkloadSynth.Proofs.Rounding

/-!
# Putting values at zero

What the floor of the sampler does to a double.  It leaves a double without a sign alone, and
dividing by a positive word commutes with it (`floorAtZero_div`): quotients are rounded, but they
keep their sign, and the NaN, the zeros and the infinities are told apart as before.
-/

namespace WorkloadSynth

/-! ## §1 — signs of quotients -/

namespace Double

open Float.Model.UnpackedFloat Float.Model.Format

/-- An only function has all the memory. -/
theorem div_one {x : Float} (hx : NonNeg x) : x / (1 : UInt64).toFloat = x := by
  obtain ⟨r, f, hr, hone, -, hval⟩ := unpack_toFloat_of_lt (n := 1) (by decide) (by decide)
  have hnan := hx.not_isNaN
  apply Float.toBits_inj.mp
  apply UInt64.toNat.inj
  show (packed (Float.Model.UnpackedFloat.div binary64 x.toModel.unpack
    (1 : UInt64).toFloat.toModel.unpack)).toNat = _
  rw [hone]
  unfold NonNeg at hx
  cases hu : x.toModel.unpack with
  | notANumber => rw [hu] at hx; exact hx.elim
  | infinity s => rw [hu] at hx; cases hx; rw [toBits_of_unpack hu hnan]; rfl
  | zero s => rw [hu] at hx; cases hx; rw [toBits_of_unpack hu hnan]; rfl
  | finite s m e h =>
    rw [hu] at hx
    cases hx
    -- both are the double that is nearest to the same number
    rw [toNat_packed_div, hval, toNat_toBits_of_unpack hu]
    simp

/-- Packing keeps a minus sign. -/
theorem not_nonNeg_of_signBit {f : Float.Model.UnpackedFloat} (hnan : f.isNaN = false)
    (h : signBit f = 1) : ¬ NonNeg (.ofModel (.pack f)) := by
  intro hpos
  have hsign : (packed f).toNat < 2 ^ 63 :=
    wordSign_eq_positive.mp ((nonNeg_iff _).mp hpos).2
  obtain ⟨hbits, -⟩ := toNat_packed_eq_signBit f hnan
  omega

/-- Rounding keeps the sign, also where it rounds to zero or to the infinity. -/
theorem signBit_roundWithAccuracy (s : Sign) (m : Nat) (e : Int) (a : Accuracy) :
    signBit (roundWithAccuracy binary64 s m e a) = s.toBitVec.toNat ∧
      (roundWithAccuracy binary64 s m e a).isNaN = false := by
  rw [roundWithAccuracy_eq_settle, settle]
  split
  · exact ⟨rfl, rfl⟩
  · exact ⟨rfl, rfl⟩

/-- A share is positive only if what is shared is. -/
theorem pos_of_div_pos {x : Float} {n : UInt64} (hn : n ≠ 0) (h : 0.0 < x / n.toFloat) :
    0.0 < x := by
  obtain ⟨m, e, hm, hd⟩ := unpack_toFloat hn
  have hpos : (0.0 : Float) < .ofModel (.pack (Float.Model.UnpackedFloat.div binary64
    x.toModel.unpack n.toFloat.toModel.unpack)) := h
  rw [hd] at hpos
  rw [lt_iff]
  cases hu : x.toModel.unpack with
  | notANumber =>
    rw [hu] at hpos
    exact absurd hpos (by decide : ¬ (0.0 : Float) < .ofModel (.pack .notANumber))
  | infinity s =>
    cases s with
    | positive => rfl
    | negative =>
      rw [hu] at hpos
      exact absurd hpos (by decide : ¬ (0.0 : Float) < .ofModel (.pack (.infinity .negative)))
  | zero s =>
    rw [hu] at hpos
    cases s with
    | positive =>
      exact absurd hpos (by decide : ¬ (0.0 : Float) < .ofModel (.pack (.zero .positive)))
    | negative =>
      exact absurd hpos (by decide : ¬ (0.0 : Float) < .ofModel (.pack (.zero .negative)))
  | finite s m' e' hm' =>
    cases s with
    | positive => rfl
    | negative =>
      -- the quotient may round to zero, but it keeps its sign
      rw [hu] at hpos
      obtain ⟨hsign, hnan⟩ := signBit_roundWithAccuracy .negative _ _ _
      exact absurd (nonNeg_of_pos hpos) (not_nonNeg_of_signBit hnan hsign)

theorem zero_div_toFloat {n : UInt64} (hn : n ≠ 0) : 0.0 / n.toFloat = 0.0 := by
  obtain ⟨m, e, hm, hd⟩ := unpack_toFloat hn
  apply zero_div_of_pos
  rw [lt_iff, hd]
  rfl

end Double

/-! ## §2 — the floor -/

open Double (NonNeg nonNeg_of_pos toBits_of_unpack)

theorem floorAtZero_of_pos {x : Float} (h : 0.0 < x) : floorAtZero x = x := if_pos h

theorem floorAtZero_of_not_pos {x : Float} (h : ¬ 0.0 < x) : floorAtZero x = 0.0 := if_neg h

/-- What has no sign is positive or zero. -/
theorem floorAtZero_of_nonNeg {x : Float} (hx : NonNeg x) : floorAtZero x = x := by
  by_cases h : 0.0 < x
  · exact floorAtZero_of_pos h
  · have hnan := hx.not_isNaN
    rw [floorAtZero_of_not_pos h]
    rw [Double.lt_iff] at h
    unfold NonNeg at hx
    apply Float.toBits_inj.mp
    cases hu : x.toModel.unpack with
    | notANumber => rw [hu] at hx; exact hx.elim
    | infinity s => rw [hu] at hx h; cases hx; exact absurd rfl h
    | zero s => rw [hu] at hx; cases hx; exact (toBits_of_unpack hu hnan).symm
    | finite s m e hm => rw [hu] at hx h; cases hx; exact absurd rfl h

/-- **Sharing out and flooring commute.** -/
theorem floorAtZero_div (x : Float) {n : UInt64} (hn : n ≠ 0) :
    floorAtZero (x / n.toFloat) = floorAtZero x / n.toFloat := by
  by_cases hx : 0.0 < x
  · rw [floorAtZero_of_pos hx, floorAtZero_of_nonNeg ((nonNeg_of_pos hx).div_toFloat hn)]
  · have hshare : ¬ 0.0 < x / n.toFloat := fun h => hx (Double.pos_of_div_pos hn h)
    rw [floorAtZero_of_not_pos hx, floorAtZero_of_not_pos hshare, Double.zero_div_toFloat hn]

end WorkloadSynth
