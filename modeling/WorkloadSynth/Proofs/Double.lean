import Mathlib
import WorkloadSynth.Number.Double

/-!
# Doubles by their fields

The arithmetic of doubles is defined on unpacked numbers, a sign with a whole number and a power of
two, and packs its result into a word.  This module reads the fields of a word as natural numbers
(`Encodes`) and carries one property through the operations that the memory of a function goes
through: `NonNeg`, neither the NaN nor negative nor `-0`.  It survives flooring, a division by a
positive word and truncation, and what truncation leaves is a whole number or the infinity.
-/

namespace WorkloadSynth.Double

open Float.Model.UnpackedFloat Float.Model.Format

/-! ## §1 — the fields as numbers -/

theorem toNat_unpackMantissa (b : BitVec binary64.numBits) :
    (unpackMantissa b).toNat = b.toNat % 2 ^ 52 := by
  simp [unpackMantissa]

theorem toNat_unpackExponent (b : BitVec binary64.numBits) :
    (unpackExponent b).toNat = b.toNat / 2 ^ 52 % 2 ^ 11 := by
  simp [unpackExponent, Nat.shiftRight_eq_div_pow]

theorem toNat_unpackSign (b : BitVec binary64.numBits) :
    (unpackSign b).toNat = b.toNat / 2 ^ 63 := by
  have hb : b.toNat < 2 ^ 64 := b.isLt
  simp [unpackSign, Nat.shiftRight_eq_div_pow]
  omega

theorem toNat_packComponents (s : Sign) (e : BitVec 11) (m : BitVec 52) :
    (packComponents binary64 s e m).toNat =
      s.toBitVec.toNat * 2 ^ 63 + e.toNat * 2 ^ 52 + m.toNat := by
  have he := e.isLt
  have hm := m.isLt
  simp only [packComponents, BitVec.toNat_append]
  rw [← Nat.shiftLeft_add_eq_or_of_lt hm, ← Nat.shiftLeft_add_eq_or_of_lt he, Nat.shiftLeft_eq,
    Nat.shiftLeft_eq]
  omega

/-- The exponent bits of a word. -/
def wordExponent (w : UInt64) : Nat := w.toNat / 2 ^ 52 % 2 ^ 11

/-- The fraction bits of a word. -/
def wordFraction (w : UInt64) : Nat := w.toNat % 2 ^ 52

/-- The sign bit of a word. -/
def wordSign (w : UInt64) : Sign := if w.toNat < 2 ^ 63 then .positive else .negative

/-- Does the word encode a number or an infinity? -/
def IsNumber (w : UInt64) : Prop := wordExponent w = 2047 → wordFraction w = 0

theorem wordExponent_lt (w : UInt64) : wordExponent w < 2048 := Nat.mod_lt _ (by decide)

theorem wordFraction_lt (w : UInt64) : wordFraction w < 2 ^ 52 := Nat.mod_lt _ (by decide)

theorem ofBitVec_unpackSign (w : UInt64) :
    Sign.ofBitVec (@unpackSign binary64 w.toBitVec) = wordSign w := by
  have hs : (@unpackSign binary64 w.toBitVec).toNat = w.toNat / 2 ^ 63 :=
    toNat_unpackSign w.toBitVec
  unfold Sign.ofBitVec wordSign
  have hw := w.toNat_lt
  by_cases h : w.toNat < 2 ^ 63
  · rw [if_pos h, if_pos]
    apply BitVec.eq_of_toNat_eq
    rw [hs]
    simp
    omega
  · rw [if_neg h, if_neg]
    intro hz
    have := congrArg BitVec.toNat hz
    rw [hs] at this
    simp at this
    omega

theorem toNat_eq_fields (w : UInt64) :
    w.toNat = (wordSign w).toBitVec.toNat * 2 ^ 63 + wordExponent w * 2 ^ 52 + wordFraction w := by
  have hw := w.toNat_lt
  unfold wordSign wordExponent wordFraction
  by_cases h : w.toNat < 2 ^ 63
  · rw [if_pos h]
    simp [Sign.toBitVec]
    omega
  · rw [if_neg h]
    simp [Sign.toBitVec]
    omega

/-- What a word encodes, by its fields. -/
inductive Encodes (w : UInt64) : Float.Model.UnpackedFloat → Prop where
  | infinity (he : wordExponent w = 2047) (hm : wordFraction w = 0) :
      Encodes w (.infinity (wordSign w))
  | notANumber (he : wordExponent w = 2047) (hm : wordFraction w ≠ 0) : Encodes w .notANumber
  | zero (he : wordExponent w = 0) (hm : wordFraction w = 0) : Encodes w (.zero (wordSign w))
  | subnormal (he : wordExponent w = 0) (hm : 0 < wordFraction w) :
      Encodes w (.finite (wordSign w) (wordFraction w) (-1074) hm)
  | normal (h0 : 0 < wordExponent w) (he : wordExponent w < 2047)
      (hm : 0 < wordFraction w + 2 ^ 52) :
      Encodes w (.finite (wordSign w) (wordFraction w + 2 ^ 52) (wordExponent w - 1075) hm)

theorem finite_congr {s : Sign} {m m' : Nat} {e e' : Int} {h : 0 < m} (p : 0 < m') (hm : m = m')
    (he : e = e') :
    Float.Model.UnpackedFloat.finite s m e h = .finite s m' e' p := by
  subst hm he
  rfl

theorem encodes_unpack (w : UInt64) : Encodes w (unpack binary64 w.toBitVec) := by
  have hm : (@unpackMantissa binary64 w.toBitVec).toNat = wordFraction w :=
    toNat_unpackMantissa w.toBitVec
  have he : (@unpackExponent binary64 w.toBitVec).toNat = wordExponent w :=
    toNat_unpackExponent w.toBitVec
  have hlt := wordExponent_lt w
  have hones : @unpackExponent binary64 w.toBitVec = -1#_ ↔ wordExponent w = 2047 := by
    rw [← he, ← BitVec.toNat_inj]
    rfl
  have hnone : @unpackExponent binary64 w.toBitVec = 0#_ ↔ wordExponent w = 0 := by
    rw [← he, ← BitVec.toNat_inj]
    rfl
  have hzero : @unpackMantissa binary64 w.toBitVec = 0#_ ↔ wordFraction w = 0 := by
    rw [← hm, ← BitVec.toNat_inj]
    rfl
  unfold unpack
  simp only [ofBitVec_unpackSign]
  by_cases h1 : wordExponent w = 2047
  · rw [if_pos (hones.mpr h1)]
    by_cases h2 : wordFraction w = 0
    · rw [if_pos (hzero.mpr h2)]
      exact .infinity h1 h2
    · rw [if_neg (mt hzero.mp h2)]
      exact .notANumber h1 h2
  · rw [if_neg (mt hones.mp h1)]
    by_cases h2 : wordExponent w = 0
    · rw [if_pos (hnone.mpr h2)]
      by_cases h3 : wordFraction w = 0
      · rw [dif_pos (hzero.mpr h3)]
        exact .zero h2 h3
      · rw [dif_neg (mt hzero.mp h3), finite_congr (Nat.pos_of_ne_zero h3) hm (by rw [he, h2])]
        exact .subnormal h2 _
    · rw [if_neg (mt hnone.mp h2)]
      have hlead : (1#1 ++ @unpackMantissa binary64 w.toBitVec).toNat =
          wordFraction w + 2 ^ 52 := by
        rw [BitVec.toNat_append, ← Nat.shiftLeft_add_eq_or_of_lt (BitVec.isLt _), hm]
        simp [Nat.shiftLeft_eq]
        omega
      have hexp : ((@unpackExponent binary64 w.toBitVec).toNat : Int) -
          (binary64.exponentBias + binary64.mantissaBitsWithoutImplicit) =
            wordExponent w - 1075 := by
        rw [he]
        rfl
      rw [finite_congr (by omega) hlead hexp]
      exact .normal (by omega) (by omega) _

/-! ## §2 — packing -/

/-- The word with the given fields. -/
def ofFields (s : Sign) (e : BitVec 11) (m : BitVec 52) : UInt64 :=
  UInt64.ofBitVec (packComponents binary64 s e m)

theorem toNat_ofFields (s : Sign) (e : BitVec 11) (m : BitVec 52) :
    (ofFields s e m).toNat = s.toBitVec.toNat * 2 ^ 63 + e.toNat * 2 ^ 52 + m.toNat :=
  toNat_packComponents s e m

theorem wordExponent_ofFields (s : Sign) (e : BitVec 11) (m : BitVec 52) :
    wordExponent (ofFields s e m) = e.toNat := by
  have he := e.isLt
  have hm := m.isLt
  unfold wordExponent
  rw [toNat_ofFields]
  cases s <;> simp [Sign.toBitVec] <;> omega

theorem wordFraction_ofFields (s : Sign) (e : BitVec 11) (m : BitVec 52) :
    wordFraction (ofFields s e m) = m.toNat := by
  have hm := m.isLt
  unfold wordFraction
  rw [toNat_ofFields]
  cases s <;> simp [Sign.toBitVec] <;> omega

theorem wordSign_ofFields (s : Sign) (e : BitVec 11) (m : BitVec 52) :
    wordSign (ofFields s e m) = s := by
  have he := e.isLt
  have hm := m.isLt
  unfold wordSign
  rw [toNat_ofFields]
  cases s <;> simp [Sign.toBitVec] <;> omega

/-- A word is determined by its fields. -/
theorem ofFields_fields (w : UInt64) :
    ofFields (wordSign w) (BitVec.ofNat 11 (wordExponent w)) (BitVec.ofNat 52 (wordFraction w)) =
      w := by
  apply UInt64.toNat.inj
  rw [toNat_ofFields, BitVec.toNat_ofNat, BitVec.toNat_ofNat,
    Nat.mod_eq_of_lt (wordExponent_lt w), Nat.mod_eq_of_lt (wordFraction_lt w)]
  exact (toNat_eq_fields w).symm

/-- The word of an unpacked double. -/
def packed (f : Float.Model.UnpackedFloat) : UInt64 := UInt64.ofBitVec (pack binary64 f)

theorem packed_infinity (s : Sign) : packed (.infinity s) = ofFields s (-1#11) 0 := rfl

theorem packed_zero (s : Sign) : packed (.zero s) = ofFields s 0 0 := rfl

theorem packed_finite (s : Sign) (m : Nat) (e : Int) (h : 0 < m) :
    packed (.finite s m e h) =
      if 2047 ≤ (e + 1075).toNat then ofFields s (-1#11) 0
      else if m.log2 = 52 then ofFields s (BitVec.ofNat 11 (e + 1075).toNat) (BitVec.ofNat 52 m)
      else ofFields s 0 (BitVec.ofNat 52 m) := by
  have hb : e + (binary64.exponentBias : Nat) + (binary64.mantissaBitsWithoutImplicit : Nat) =
      e + 1075 := by
    rw [show binary64.exponentBias = 1023 from rfl,
      show binary64.mantissaBitsWithoutImplicit = 52 from rfl]
    omega
  unfold packed pack
  simp only [hb]
  have h1 : 2 ^ binary64.exponentBits ≤ (e + 1075).toNat + 1 ↔ 2047 ≤ (e + 1075).toNat := by
    simp
  have h2 : m.log2 + 1 = binary64.mantissaBits ↔ m.log2 = 52 := by
    rw [show binary64.mantissaBits = 53 from rfl]
    omega
  simp only [h1, h2]
  split
  · rfl
  · split
    · rfl
    · rfl

/-- **Packing undoes unpacking.** Only the words of not-a-numbers are replaced. -/
theorem packed_unpack {w : UInt64} (h : IsNumber w) : packed (unpack binary64 w.toBitVec) = w := by
  have hf := ofFields_fields w
  have henc := encodes_unpack w
  generalize unpack binary64 w.toBitVec = f at henc ⊢
  cases henc with
  | infinity he hm =>
    rw [packed_infinity]
    rw [he, hm] at hf
    exact hf
  | notANumber he hm => exact absurd (h he) hm
  | zero he hm =>
    rw [packed_zero]
    rw [he, hm] at hf
    exact hf
  | subnormal he hm =>
    have hlog : (wordFraction w).log2 ≠ 52 := by
      have := (Nat.log2_lt (Nat.ne_of_gt hm)).mpr (wordFraction_lt w)
      omega
    rw [packed_finite, if_neg (by decide), if_neg hlog]
    rw [he] at hf
    exact hf
  | normal h0 he hm =>
    have hlt := wordFraction_lt w
    have hlog : (wordFraction w + 2 ^ 52).log2 = 52 :=
      (Nat.log2_eq_iff (Nat.ne_of_gt hm)).mpr ⟨Nat.le_add_left _ _, by omega⟩
    have hexp : ((wordExponent w - 1075 : Int) + 1075).toNat = wordExponent w := by omega
    rw [packed_finite, hexp, if_neg (by omega), if_pos hlog, BitVec.ofNat_add,
      show BitVec.ofNat 52 (2 ^ 52) = 0#52 from rfl, BitVec.add_zero]
    exact hf

theorem toBits_ofBits {w : UInt64} (h : IsNumber w) : (Float.ofBits w).toBits = w :=
  packed_unpack h

/-- What the word of a double encodes is what the double unpacks to. -/
theorem encodes_toBits (x : Float) : Encodes x.toBits x.toModel.unpack := encodes_unpack x.toBits

/-! ## §3 — doubles that are not negative -/

/-- A number or an infinity without a sign. -/
def Unsigned : Float.Model.UnpackedFloat → Prop
  | .infinity s => s = .positive
  | .notANumber => False
  | .zero s => s = .positive
  | .finite s .. => s = .positive

/-- A double that is neither the NaN nor negative nor `-0`. -/
def NonNeg (x : Float) : Prop := Unsigned x.toModel.unpack

theorem Encodes.unsigned_iff {w : UInt64} {f : Float.Model.UnpackedFloat} (h : Encodes w f) :
    Unsigned f ↔ IsNumber w ∧ wordSign w = .positive := by
  unfold IsNumber
  cases h with
  | infinity he hm => exact ⟨fun hf => ⟨fun _ => hm, hf⟩, fun h => h.2⟩
  | notANumber he hm => exact ⟨fun hf => hf.elim, fun h => hm (h.1 he)⟩
  | zero he hm => exact ⟨fun hf => ⟨fun _ => hm, hf⟩, fun h => h.2⟩
  | subnormal he hm => exact ⟨fun hf => ⟨fun hz => by omega, hf⟩, fun h => h.2⟩
  | normal h0 he hm => exact ⟨fun hf => ⟨fun hz => by omega, hf⟩, fun h => h.2⟩

/-- Not negative means that the word of a number has no sign bit. -/
theorem nonNeg_iff (x : Float) :
    NonNeg x ↔ IsNumber x.toBits ∧ wordSign x.toBits = .positive :=
  (encodes_toBits x).unsigned_iff

theorem NonNeg.not_isNaN {x : Float} (h : NonNeg x) : x.isNaN = false := by
  unfold NonNeg at h
  show x.toModel.unpack.isNaN = false
  cases hx : x.toModel.unpack with
  | notANumber => rw [hx] at h; exact h.elim
  | infinity s => rfl
  | zero s => rfl
  | finite s m e hm => rfl

theorem NonNeg.not_isNegative {x : Float} (h : NonNeg x) : isNegative x = false := by
  have hs := ((nonNeg_iff x).mp h).2
  have hlt : x.toBits.toNat < 2 ^ 63 := by
    by_contra hge
    unfold wordSign at hs
    rw [if_neg hge] at hs
    cases hs
  have hz : x.toBits >>> 63 = 0 := by
    apply UInt64.toNat.inj
    rw [UInt64.toNat_shiftRight]
    simp [Nat.shiftRight_eq_div_pow]
    omega
  unfold isNegative
  rw [hz]
  rfl

/-- Packing keeps the sign, and an overflow is an infinity. -/
theorem unsigned_packed {f : Float.Model.UnpackedFloat} (h : Unsigned f) :
    IsNumber (packed f) ∧ wordSign (packed f) = .positive := by
  unfold IsNumber
  cases f with
  | notANumber => exact h.elim
  | infinity s =>
    rw [packed_infinity, wordFraction_ofFields, wordSign_ofFields]
    exact ⟨fun _ => rfl, h⟩
  | zero s =>
    rw [packed_zero, wordFraction_ofFields, wordSign_ofFields]
    exact ⟨fun _ => rfl, h⟩
  | finite s m e hm =>
    rw [packed_finite]
    split
    · rw [wordFraction_ofFields, wordSign_ofFields]
      exact ⟨fun _ => rfl, h⟩
    · rename_i hexp
      split
      · rw [wordExponent_ofFields, wordSign_ofFields, BitVec.toNat_ofNat]
        refine ⟨fun hz => ?_, h⟩
        rw [Nat.mod_eq_of_lt (by omega)] at hz
        omega
      · rw [wordExponent_ofFields, wordSign_ofFields]
        exact ⟨fun hz => absurd hz (by decide), h⟩

theorem nonNeg_ofModel_pack {f : Float.Model.UnpackedFloat} (h : Unsigned f) :
    NonNeg (.ofModel (.pack f)) :=
  (nonNeg_iff _).mpr (unsigned_packed h)

theorem nonNeg_zero : NonNeg 0.0 := (rfl : Float.Model.UnpackedFloat.Sign.positive = .positive)

theorem nonNeg_of_pos {x : Float} (h : 0.0 < x) : NonNeg x := by
  have hlt : ((0.0 : Float).toModel.unpack.compare x.toModel.unpack == some .lt) = true :=
    of_decide_eq_true h
  rw [show (0.0 : Float).toModel.unpack = .zero .positive from rfl] at hlt
  unfold NonNeg
  cases hx : x.toModel.unpack with
  | notANumber => rw [hx] at hlt; cases hlt
  | infinity s => rw [hx] at hlt; cases s <;> first | rfl | cases hlt
  | zero s => rw [hx] at hlt; cases hlt
  | finite s m e hm => rw [hx] at hlt; cases s <;> first | rfl | cases hlt

/-! ## §4 — rounding -/

theorem mantissa_shiftRight (em : ExtendedMantissa) (k : Nat) :
    (em >>> k).mantissa = em.mantissa / 2 ^ k := by
  show (k.repeat ExtendedMantissa.shiftRightOne em).mantissa = _
  induction k with
  | zero => exact (Nat.div_one _).symm
  | succ k ih =>
    show (k.repeat ExtendedMantissa.shiftRightOne em).mantissa / 2 = _
    rw [ih, Nat.div_div_eq_div_mul, Nat.pow_succ]

theorem mantissa_ofMantissaAndAccuracy (m : Nat) (a : Accuracy) :
    (ExtendedMantissa.ofMantissaAndAccuracy m a).mantissa = m := by
  cases a with
  | exact => rfl
  | inexact o => cases o <;> rfl

theorem roundToNearestEven_bounds (m : Nat) (a : Accuracy) :
    m ≤ a.roundToNearestEven m ∧ a.roundToNearestEven m ≤ m + 1 := by
  cases a with
  | exact => exact ⟨Nat.le_refl m, Nat.le_succ m⟩
  | inexact o =>
    cases o with
    | lt => exact ⟨Nat.le_refl m, Nat.le_succ m⟩
    | eq => show m ≤ m + m % 2 ∧ m + m % 2 ≤ m + 1; omega
    | gt => exact ⟨Nat.le_succ m, Nat.le_refl _⟩

/-- How many bits `shiftToTargetExponent` drops. -/
def droppedBits (m : Nat) (e : Int) : Nat :=
  (max ((m.log2 : Int) + e - 52) (-1074) - e).toNat

theorem shiftToTargetExponent_eq (m : Nat) (e : Int) (a : Accuracy) :
    shiftToTargetExponent binary64 m e a =
      (ExtendedMantissa.ofMantissaAndAccuracy m a >>> droppedBits m e, e + droppedBits m e) := by
  have ht : binary64.targetExponent (Float.Model.totalExponent m e) =
      max ((m.log2 : Int) + e - 52) (-1074) := by
    unfold targetExponent Float.Model.totalExponent
    rw [show binary64.minExponent = -1074 from rfl, show binary64.mantissaBits = 53 from rfl]
    omega
  unfold shiftToTargetExponent shiftToExponent droppedBits
  rw [ht]

/-- Dropping bits leaves at most fifty-three of them. -/
theorem div_droppedBits_lt (m : Nat) (e : Int) : m / 2 ^ droppedBits m e < 2 ^ 53 := by
  have hk : m.log2 + 1 ≤ 53 + droppedBits m e := by unfold droppedBits; omega
  refine Nat.div_lt_of_lt_mul ?_
  rw [← Nat.pow_add, Nat.add_comm]
  exact Nat.lt_of_lt_of_le Nat.lt_log2_self (Nat.pow_le_pow_right (by decide) hk)

theorem div_pow_pos {m k : Nat} (hm : m ≠ 0) (hk : k ≤ m.log2) : 0 < m / 2 ^ k :=
  Nat.div_pos (Nat.le_trans (Nat.pow_le_pow_right (by decide) hk) (Nat.log2_self_le hm))
    (Nat.pow_pos (by decide))

theorem roundWithAccuracy_of_pos {s : Sign} {m r k : Nat} {e e' : Int} {a : Accuracy}
    (hr : (ExtendedMantissa.ofMantissaAndAccuracy m a >>> droppedBits m e).roundedMantissa = r)
    (he : e + droppedBits m e = e') (hk : droppedBits r e' = k) (hpos : 0 < r / 2 ^ k) :
    roundWithAccuracy binary64 s m e a = .finite s (r / 2 ^ k) (e' + k) hpos := by
  have hres : (ExtendedMantissa.ofMantissaAndAccuracy r .exact >>> k).mantissa = r / 2 ^ k := by
    rw [mantissa_shiftRight, mantissa_ofMantissaAndAccuracy]
  unfold roundWithAccuracy
  simp only [shiftToTargetExponent_eq, hr, he, hk]
  rw [dif_neg (by rw [hres]; exact Nat.ne_of_gt hpos)]
  exact finite_congr hpos hres rfl

/-- **Rounding in the normal range.** A number that is at least the smallest normal double stays
positive in magnitude, has at most fifty-three bits, and moves its exponent up by no more than the
bits that are too many. -/
theorem roundWithAccuracy_normal (s : Sign) {m : Nat} {e : Int} (a : Accuracy) (hm : m ≠ 0)
    (hlow : -1022 ≤ m.log2 + e) :
    ∃ m' e' h, roundWithAccuracy binary64 s m e a = .finite s m' e' h ∧ m' < 2 ^ 53 ∧
      -1074 ≤ e' ∧ e' ≤ max e (m.log2 + e - 52) + 1 := by
  obtain ⟨hlo, hhi⟩ :=
    roundToNearestEven_bounds (m / 2 ^ droppedBits m e)
      (ExtendedMantissa.ofMantissaAndAccuracy m a >>> droppedBits m e).accuracy
  generalize hr : (ExtendedMantissa.ofMantissaAndAccuracy m a >>>
    droppedBits m e).roundedMantissa = r
  have hr' := hr
  rw [ExtendedMantissa.roundedMantissa, mantissa_shiftRight, mantissa_ofMantissaAndAccuracy] at hr'
  rw [hr'] at hlo hhi
  have hlt := div_droppedBits_lt m e
  have hpos : 0 < m / 2 ^ droppedBits m e := div_pow_pos hm (by unfold droppedBits; omega)
  have hr0 : r ≠ 0 := by omega
  have hlog : r.log2 < 54 := (Nat.log2_lt hr0).mpr (by omega)
  have he' : -1074 ≤ e + droppedBits m e ∧ e + droppedBits m e ≤ max e (m.log2 + e - 52) := by
    unfold droppedBits
    omega
  -- a carry into the fifty-fourth bit drops one more bit, which is not the only one
  have hdrop : droppedBits r (e + droppedBits m e) ≤ 1 ∧
      droppedBits r (e + droppedBits m e) ≤ r.log2 := by
    unfold droppedBits at he' ⊢
    omega
  refine ⟨_, _, div_pow_pos hr0 hdrop.2, roundWithAccuracy_of_pos hr rfl rfl _,
    div_droppedBits_lt r _, ?_, ?_⟩
  · omega
  · omega

theorem shiftLeft_ne_zero {n : Nat} (hn : n ≠ 0) (k : Nat) : n <<< k ≠ 0 := by
  rw [Nat.shiftLeft_eq]
  exact Nat.mul_ne_zero hn (Nat.two_pow_pos k).ne'

theorem log2_shiftLeft {n : Nat} (hn : n ≠ 0) (k : Nat) : (n <<< k).log2 = n.log2 + k := by
  induction k with
  | zero => rfl
  | succ k ih => rw [Nat.shiftLeft_succ, Nat.log2_two_mul (shiftLeft_ne_zero hn k), ih]; rfl

/-- A positive word becomes a positive number with room to the ends of the format. -/
theorem ofNat_finite {n : Nat} (hn : n ≠ 0) (h : n < 2 ^ 64) :
    ∃ m e hm, Float.Model.UnpackedFloat.ofNat binary64 n = .finite .positive m e hm ∧
      m < 2 ^ 53 ∧ -1074 ≤ e ∧ e ≤ 971 := by
  have hlog : n.log2 < 64 := (Nat.log2_lt hn).mpr h
  have hcmp : compare (n : Int) 0 = .gt := by
    rw [Int.compare_eq_gt]
    omega
  unfold Float.Model.UnpackedFloat.ofNat Float.Model.UnpackedFloat.ofInt
    Float.Model.UnpackedFloat.normalize
  rw [hcmp]
  simp only [Int.toNat_natCast]
  unfold Float.Model.UnpackedFloat.round decreaseExponent
  dsimp only
  generalize (0 - targetExponent binary64 (Float.Model.totalExponent n 0)).toNat = k
  have hne := shiftLeft_ne_zero hn k
  obtain ⟨m, e, hm, heq, hm', he, he'⟩ :=
    roundWithAccuracy_normal .positive (e := 0 - k) .exact hne (by rw [log2_shiftLeft hn]; omega)
  rw [log2_shiftLeft hn] at he'
  exact ⟨m, e, hm, heq, hm', he, by omega⟩

/-- A number within the format stays a number when it is packed and unpacked again. -/
theorem unpack_packed_finite {s : Sign} {m : Nat} {e : Int} (h : 0 < m) (hm : m < 2 ^ 53)
    (he : -1074 ≤ e) (he' : e ≤ 971) :
    ∃ m' e' h', unpack binary64 (packed (.finite s m e h)).toBitVec = .finite s m' e' h' := by
  have henc := encodes_unpack (packed (.finite s m e h))
  have hfields : wordSign (packed (.finite s m e h)) = s ∧
      wordExponent (packed (.finite s m e h)) < 2047 ∧
      (wordExponent (packed (.finite s m e h)) = 0 →
        wordFraction (packed (.finite s m e h)) ≠ 0) := by
    rw [packed_finite, if_neg (by omega)]
    by_cases hlog : m.log2 = 52
    · rw [if_pos hlog, wordSign_ofFields, wordExponent_ofFields, BitVec.toNat_ofNat,
        Nat.mod_eq_of_lt (by omega)]
      exact ⟨rfl, by omega, fun hz => by omega⟩
    · have hlt : m.log2 < 53 := (Nat.log2_lt (Nat.ne_of_gt h)).mpr hm
      have hm52 : m < 2 ^ 52 := (Nat.log2_lt (Nat.ne_of_gt h)).mp (by omega)
      rw [if_neg hlog, wordSign_ofFields, wordExponent_ofFields, wordFraction_ofFields,
        BitVec.toNat_ofNat, Nat.mod_eq_of_lt hm52]
      exact ⟨rfl, by decide, fun _ => Nat.ne_of_gt h⟩
  -- the exponent field is neither that of a zero nor that of an infinity
  obtain ⟨hs, hexp, hfrac⟩ := hfields
  generalize packed (.finite s m e h) = w at henc hs hexp hfrac
  generalize unpack binary64 w.toBitVec = f at henc ⊢
  cases henc with
  | infinity he hm => omega
  | notANumber he hm => omega
  | zero he hm => exact absurd hm (hfrac he)
  | subnormal he hm => exact ⟨_, _, _, by rw [hs]⟩
  | normal h0 he hm => exact ⟨_, _, _, by rw [hs]⟩

/-- Positive words are positive numbers. -/
theorem unpack_toFloat {n : UInt64} (hn : n ≠ 0) :
    ∃ m e h, n.toFloat.toModel.unpack = .finite .positive m e h := by
  have h0 : n.toNat ≠ 0 := fun h => hn (UInt64.toNat.inj h)
  obtain ⟨m, e, h, heq, hm, he, he'⟩ := ofNat_finite h0 n.toNat_lt
  obtain ⟨m', e', h', hun⟩ := unpack_packed_finite (s := .positive) h hm he he'
  refine ⟨m', e', h', ?_⟩
  rw [← hun, ← heq]
  rfl

/-- All words are finite numbers. -/
theorem isFinite_toFloat (n : UInt64) : n.toFloat.isFinite = true := by
  show n.toFloat.toModel.unpack.isFinite = true
  by_cases hn : n = 0
  · rw [hn]
    decide
  · obtain ⟨m, e, h, hd⟩ := unpack_toFloat hn
    rw [hd]
    rfl

theorem unsigned_roundWithAccuracy (m : Nat) (e : Int) (a : Accuracy) :
    Unsigned (roundWithAccuracy binary64 .positive m e a) := by
  unfold roundWithAccuracy
  simp only [shiftToTargetExponent_eq]
  split
  · rfl
  · rfl

/-- **Shares are not negative.** Dividing by a positive word keeps a double away from the NaN and
from `-0`, whether it was finite or not. -/
theorem NonNeg.div_toFloat {x : Float} (hx : NonNeg x) {n : UInt64} (hn : n ≠ 0) :
    NonNeg (x / n.toFloat) := by
  obtain ⟨m', e', h', hd⟩ := unpack_toFloat hn
  refine nonNeg_ofModel_pack (f := Float.Model.UnpackedFloat.div binary64 x.toModel.unpack
    n.toFloat.toModel.unpack) ?_
  -- the divisor is a positive number, so no quotient is a NaN
  rw [hd]
  unfold NonNeg at hx
  cases hu : x.toModel.unpack with
  | notANumber => rw [hu] at hx; exact hx.elim
  | infinity s => rw [hu] at hx; cases hx; rfl
  | zero s => rw [hu] at hx; cases hx; rfl
  | finite s m e h =>
    rw [hu] at hx
    cases hx
    exact unsigned_roundWithAccuracy ..

/-! ## §5 — whole numbers -/

/-- The number that a double stands for; zero for infinities and the NaN. -/
def value (x : Float) : ℚ :=
  match x.toModel.unpack with
  | .finite s m e _ => s.apply m * 2 ^ e
  | _ => 0

theorem value_of_zero {x : Float} {s : Sign} (hx : x.toModel.unpack = .zero s) : value x = 0 := by
  unfold value
  rw [hx]

theorem value_of_positive {x : Float} {m : Nat} {e : Int} {hm : 0 < m}
    (hx : x.toModel.unpack = .finite .positive m e hm) : value x = m * 2 ^ e := by
  unfold value
  rw [hx]
  exact congrArg (· * (2 : ℚ) ^ e) (Int.cast_natCast m)

theorem exponentField_eq (x : Float) : exponentField x = wordExponent x.toBits := by
  unfold exponentField wordExponent
  rw [UInt64.toNat_and, UInt64.toNat_shiftRight]
  show x.toBits.toNat >>> 52 &&& 2047 = _
  rw [Nat.and_two_pow_sub_one_eq_mod _ 11, Nat.shiftRight_eq_div_pow]

theorem wordSign_eq_positive {w : UInt64} : wordSign w = .positive ↔ w.toNat < 2 ^ 63 := by
  unfold wordSign
  split
  · exact iff_of_true rfl ‹_›
  · exact iff_of_false nofun ‹_›

/-- The value of a normal double without a sign. -/
theorem value_of_normal {x : Float} (h0 : 0 < wordExponent x.toBits)
    (he : wordExponent x.toBits < 2047) (hs : wordSign x.toBits = .positive) :
    value x =
      (wordFraction x.toBits + 2 ^ 52 : Nat) * 2 ^ (wordExponent x.toBits - 1075 : Int) := by
  have henc := encodes_toBits x
  unfold value
  generalize x.toModel.unpack = f at henc ⊢
  cases henc with
  | infinity he' hm => omega
  | notANumber he' hm => omega
  | zero he' hm => omega
  | subnormal he' hm => omega
  | normal _ _ hm =>
    rw [hs]
    exact congrArg (· * _) (Int.cast_natCast _)

/-- A whole number or an infinity. -/
def WholeOrInfinite (x : Float) : Prop := x.isInf = true ∨ ∃ k : Nat, value x = k

/-- A multiple of the unit in the last place of whole numbers is whole. -/
theorem exists_nat_of_dvd {m d : Nat} (h : 2 ^ d ∣ m) :
    ∃ k : Nat, (m : ℚ) * 2 ^ (-d : Int) = k := by
  obtain ⟨k, rfl⟩ := h
  refine ⟨k, ?_⟩
  rw [zpow_neg, zpow_natCast, Nat.cast_mul, Nat.cast_pow, Nat.cast_ofNat, mul_comm, ← mul_assoc,
    inv_mul_cancel₀ (by positivity), one_mul]

/-- Doubles without room for a fraction. -/
theorem NonNeg.wholeOrInfinite_of_le {x : Float} (hx : NonNeg x)
    (h : 1075 ≤ wordExponent x.toBits) : WholeOrInfinite x := by
  obtain ⟨hn, hs⟩ := (nonNeg_iff x).mp hx
  by_cases he : wordExponent x.toBits = 2047
  · left
    have henc := encodes_toBits x
    show x.toModel.unpack.isInf = true
    generalize x.toModel.unpack = f at henc ⊢
    cases henc with
    | infinity he' hm => rfl
    | notANumber he' hm => exact absurd (hn he) hm
    | zero he' hm => omega
    | subnormal he' hm => omega
    | normal h0 he' hm => omega
  · right
    have hlt := wordExponent_lt x.toBits
    refine ⟨(wordFraction x.toBits + 2 ^ 52) * 2 ^ (wordExponent x.toBits - 1075), ?_⟩
    have hexp : (wordExponent x.toBits - 1075 : Int) = (wordExponent x.toBits - 1075 : Nat) := by
      omega
    rw [value_of_normal (by omega) (by omega) hs, hexp, zpow_natCast]
    push_cast
    rfl

theorem wholeOrInfinite_zero : WholeOrInfinite 0.0 := by
  refine .inr ⟨0, ?_⟩
  unfold value
  rw [show (0.0 : Float).toModel.unpack = .zero .positive from rfl]
  exact Nat.cast_zero.symm

theorem and_signBit_of_positive {w : UInt64} (h : wordSign w = .positive) :
    w &&& 0x8000000000000000 = 0 := by
  apply UInt64.toNat.inj
  rw [UInt64.toNat_and]
  show w.toNat &&& 2 ^ 63 = 0
  rw [Nat.and_two_pow, Nat.testBit_lt_two_pow (wordSign_eq_positive.mp h)]
  rfl

section Cleared

variable {w d : UInt64} (hd : d.toNat ≤ 52)

/-- Clears the last `d` bits of a word. -/
theorem toNat_cleared (hd : d.toNat ≤ 52) :
    ((w >>> d) <<< d).toNat = w.toNat / 2 ^ d.toNat * 2 ^ d.toNat := by
  have hw := w.toNat_lt
  rw [UInt64.toNat_shiftLeft, UInt64.toNat_shiftRight, Nat.mod_eq_of_lt (by omega : d.toNat < 64),
    Nat.shiftRight_eq_div_pow, Nat.shiftLeft_eq]
  exact Nat.mod_eq_of_lt (Nat.lt_of_le_of_lt (Nat.div_mul_le_self _ _) hw)

include hd

/-- Clearing bits of the fraction leaves the other fields alone. -/
theorem wordExponent_cleared : wordExponent ((w >>> d) <<< d) = wordExponent w := by
  have hpow : 2 ^ 52 = 2 ^ d.toNat * 2 ^ (52 - d.toNat) := by
    rw [← Nat.pow_add]
    congr 1
    omega
  unfold wordExponent
  rw [toNat_cleared hd, hpow, ← Nat.div_div_eq_div_mul, ← Nat.div_div_eq_div_mul,
    Nat.mul_div_cancel _ (Nat.two_pow_pos _)]

theorem wordSign_cleared (hs : wordSign w = .positive) :
    wordSign ((w >>> d) <<< d) = .positive := by
  rw [wordSign_eq_positive, toNat_cleared hd]
  exact Nat.lt_of_le_of_lt (Nat.div_mul_le_self _ _) (wordSign_eq_positive.mp hs)

theorem dvd_wordFraction_cleared : 2 ^ d.toNat ∣ wordFraction ((w >>> d) <<< d) + 2 ^ 52 := by
  have h52 : 2 ^ d.toNat ∣ 2 ^ 52 := Nat.pow_dvd_pow 2 hd
  unfold wordFraction
  rw [toNat_cleared hd]
  exact Nat.dvd_add ((Nat.dvd_mod_iff h52).mpr (Nat.dvd_mul_left _ _)) h52

end Cleared

/-- **Truncation.** What is left of a double that is not negative is a whole number or the
infinity. -/
theorem NonNeg.truncate {x : Float} (hx : NonNeg x) :
    NonNeg (truncate x) ∧ WholeOrInfinite (truncate x) := by
  obtain ⟨-, hs⟩ := (nonNeg_iff x).mp hx
  unfold Double.truncate
  simp only [exponentField_eq]
  -- below one, all whole, and in between
  by_cases hsmall : wordExponent x.toBits < 1023
  · rw [if_pos hsmall, and_signBit_of_positive hs]
    exact ⟨nonNeg_zero, wholeOrInfinite_zero⟩
  rw [if_neg hsmall]
  by_cases hlarge : 1075 ≤ wordExponent x.toBits
  · rw [if_pos hlarge]
    exact ⟨hx, hx.wholeOrInfinite_of_le hlarge⟩
  rw [if_neg hlarge]
  -- the bits behind the point are cleared; sign and exponent stay as they are
  have hdrop : (UInt64.ofNat (1075 - wordExponent x.toBits)).toNat =
      1075 - wordExponent x.toBits :=
    UInt64.toNat_ofNat_of_lt' (by rw [UInt64.size]; omega)
  have hd : (UInt64.ofNat (1075 - wordExponent x.toBits)).toNat ≤ 52 := by omega
  have hexp := wordExponent_cleared (w := x.toBits) hd
  have hsign := wordSign_cleared hd hs
  have hdvd := dvd_wordFraction_cleared (w := x.toBits) hd
  generalize UInt64.ofNat (1075 - wordExponent x.toBits) = d at hdrop hexp hsign hdvd ⊢
  generalize (x.toBits >>> d) <<< d = w at hexp hsign hdvd ⊢
  have hnum : IsNumber w := fun h => by omega
  have hbits : (Float.ofBits w).toBits = w := toBits_ofBits hnum
  refine ⟨(nonNeg_iff _).mpr (by rw [hbits]; exact ⟨hnum, hsign⟩), .inr ?_⟩
  rw [value_of_normal (by rw [hbits]; omega) (by rw [hbits]; omega) (by rw [hbits]; exact hsign),
    hbits, show (wordExponent w - 1075 : Int) = -d.toNat by omega]
  exact exists_nat_of_dvd hdvd

end WorkloadSynth.Double
