import WorkloadSynth.Lognormal.Fit
import WorkloadSynth.Proofs.Comparison
import WorkloadSynth.Proofs.Rounding

/-!
# What a fit is guarded against

A summary is estimated only if it is consistent (`Admissible`), and the first condition that it
violates decides the failure (`FirstFault`); the NaN violates whatever it is compared for.  Infinite
statistics are consistent.  They are caught behind the logarithms, by the position of the extremes
or by the parameters themselves, so a fit that is returned has finite parameters, whatever the
logarithm yields (`estimate_guards`).
-/

namespace WorkloadSynth

open Double (not_isNaN_of_lt not_isNaN_of_le not_lt_iff not_le_iff)

/-! ## §1 — consistent summaries -/

namespace Summary

/-- A summary that could be that of a sample. -/
structure Admissible (s : Summary) : Prop where
  minimum_pos : 0.0 < s.minimum
  minimum_lt_maximum : s.minimum < s.maximum
  minimum_le_mean : s.minimum ≤ s.mean
  mean_le_maximum : s.mean ≤ s.maximum
  two_le_count : 2.0 ≤ s.count

/-- All statistics of a positive quantity are positive. -/
structure IsPositive (s : Summary) : Prop where
  minimum : 0.0 < s.minimum
  maximum : 0.0 < s.maximum
  mean : 0.0 < s.mean

/-- The failure that belongs to the first condition that a summary violates. -/
inductive FirstFault (s : Summary) : FitError → Prop where
  | minimum (h : ¬ 0.0 < s.minimum) : FirstFault s (.nonPositive .minimum s.minimum)
  | maximum (hmin : 0.0 < s.minimum) (h : ¬ 0.0 < s.maximum) :
      FirstFault s (.nonPositive .maximum s.maximum)
  | mean (hmin : 0.0 < s.minimum) (hmax : 0.0 < s.maximum) (h : ¬ 0.0 < s.mean) :
      FirstFault s (.nonPositive .mean s.mean)
  | count (hpos : s.IsPositive) (h : ¬ 2.0 ≤ s.count) : FirstFault s (.tooFewSamples s.count)
  | range (hpos : s.IsPositive) (hcount : 2.0 ≤ s.count) (h : s.maximum ≤ s.minimum) :
      FirstFault s (.degenerateRange s.minimum s.maximum)
  | position (hpos : s.IsPositive) (hcount : 2.0 ≤ s.count) (hrange : s.minimum < s.maximum)
      (h : ¬ (s.minimum ≤ s.mean ∧ s.mean ≤ s.maximum)) :
      FirstFault s (.meanOutOfRange s.minimum s.maximum s.mean)

variable {s : Summary}

theorem IsPositive.not_isNaN (h : s.IsPositive) :
    s.minimum.isNaN = false ∧ s.maximum.isNaN = false ∧ s.mean.isNaN = false :=
  ⟨(not_isNaN_of_lt h.minimum).2, (not_isNaN_of_lt h.maximum).2, (not_isNaN_of_lt h.mean).2⟩

theorem Admissible.isPositive (h : s.Admissible) : s.IsPositive :=
  ⟨h.minimum_pos, Double.lt_trans h.minimum_pos h.minimum_lt_maximum,
    Double.lt_of_lt_of_le h.minimum_pos h.minimum_le_mean⟩

/-- A summary is consistent, or one condition is the first that it violates. -/
theorem admissible_or_firstFault (s : Summary) : s.Admissible ∨ ∃ e, s.FirstFault e := by
  by_cases hmin : 0.0 < s.minimum
  case neg => exact .inr ⟨_, .minimum hmin⟩
  by_cases hmax : 0.0 < s.maximum
  case neg => exact .inr ⟨_, .maximum hmin hmax⟩
  by_cases hmean : 0.0 < s.mean
  case neg => exact .inr ⟨_, .mean hmin hmax hmean⟩
  have hpos : s.IsPositive := ⟨hmin, hmax, hmean⟩
  obtain ⟨hminNaN, hmaxNaN, -⟩ := hpos.not_isNaN
  by_cases hcount : 2.0 ≤ s.count
  case neg => exact .inr ⟨_, .count hpos hcount⟩
  by_cases hrange : s.maximum ≤ s.minimum
  case pos => exact .inr ⟨_, .range hpos hcount hrange⟩
  have hrange' := (not_le_iff hmaxNaN hminNaN).mp hrange
  by_cases hposition : s.minimum ≤ s.mean ∧ s.mean ≤ s.maximum
  case neg => exact .inr ⟨_, .position hpos hcount hrange' hposition⟩
  exact .inl ⟨hmin, hrange', hposition.1, hposition.2, hcount⟩

/-! ## §2 — validation -/

theorem requirePositive_of_pos {statistic : Statistic} {x : Float} (h : 0.0 < x) :
    requirePositive statistic x = .ok () := if_pos h

theorem requirePositive_of_not_pos {statistic : Statistic} {x : Float} (h : ¬ 0.0 < x) :
    requirePositive statistic x = .error (.nonPositive statistic x) := if_neg h

/-- The conditions on a summary of positive statistics. -/
theorem validate_of_isPositive (h : s.IsPositive) :
    s.validate =
      if 2.0 ≤ s.count then
        if s.maximum ≤ s.minimum then .error (.degenerateRange s.minimum s.maximum)
        else if s.mean < s.minimum ∨ s.maximum < s.mean then
          .error (.meanOutOfRange s.minimum s.maximum s.mean)
        else .ok ()
      else .error (.tooFewSamples s.count) := by
  unfold validate
  rw [requirePositive_of_pos h.minimum, requirePositive_of_pos h.maximum,
    requirePositive_of_pos h.mean]
  show (if ¬ 2.0 ≤ s.count then _ else _) = _
  by_cases hcount : 2.0 ≤ s.count
  · rw [if_neg (not_not.mpr hcount), if_pos hcount]
    show (if s.maximum ≤ s.minimum then _ else _) = _
    split
    · rfl
    · show (if s.mean < s.minimum ∨ s.maximum < s.mean then _ else _) = _
      split
      · rfl
      · rfl
  · rw [if_pos hcount, if_neg hcount]
    rfl

theorem validate_of_admissible (h : s.Admissible) : s.validate = .ok () := by
  obtain ⟨hmin, hmax, hmean⟩ := h.isPositive.not_isNaN
  have hrange : ¬ s.maximum ≤ s.minimum := (not_le_iff hmax hmin).mpr h.minimum_lt_maximum
  have hposition : ¬ (s.mean < s.minimum ∨ s.maximum < s.mean) := by
    rw [not_or, not_lt_iff hmean hmin, not_lt_iff hmax hmean]
    exact ⟨h.minimum_le_mean, h.mean_le_maximum⟩
  rw [validate_of_isPositive h.isPositive, if_pos h.two_le_count, if_neg hrange, if_neg hposition]

/-- **The first violated condition decides the failure.** -/
theorem FirstFault.validate_eq {e : FitError} (h : s.FirstFault e) : s.validate = .error e := by
  cases h with
  | minimum h =>
    rw [validate, requirePositive_of_not_pos h]
    rfl
  | maximum hmin h =>
    rw [validate, requirePositive_of_pos hmin, requirePositive_of_not_pos h]
    rfl
  | mean hmin hmax h =>
    rw [validate, requirePositive_of_pos hmin, requirePositive_of_pos hmax,
      requirePositive_of_not_pos h]
    rfl
  | count hpos h => rw [validate_of_isPositive hpos, if_neg h]
  | range hpos hcount h => rw [validate_of_isPositive hpos, if_pos hcount, if_pos h]
  | position hpos hcount hrange h =>
    obtain ⟨hmin, hmax, hmean⟩ := hpos.not_isNaN
    have houtside : s.mean < s.minimum ∨ s.maximum < s.mean := by
      rw [← not_le_iff hmin hmean, ← not_le_iff hmean hmax]
      exact not_and_or.mp h
    rw [validate_of_isPositive hpos, if_pos hcount, if_neg ((not_le_iff hmax hmin).mpr hrange),
      if_pos houtside]

end Summary

/-! ## §3 — estimation with any logarithm -/

/-- Parameters of a lognormal distribution that is not a single point. -/
structure IsProper (mu sigma : Float) : Prop where
  location : mu.isFinite = true
  deviation : sigma.isFinite = true
  deviation_pos : 0.0 < sigma

/-- How the estimation of a consistent summary can end. -/
inductive EstimateEnds (log : Float → Float) (s : Summary) : Except FitError Fit → Prop where
  | fitted (fit : Fit) (h : IsProper fit.mu fit.sigma) : EstimateEnds log s (.ok fit)
  | noPosition (h : ¬ 0.0 < extremePositionWith log s.count) :
      EstimateEnds log s (.error (.tooFewSamples s.count))
  | improper (mu sigma : Float) (h : ¬ IsProper mu sigma) :
      EstimateEnds log s (.error (.nonFinite mu sigma))

section Estimate

variable {log : Float → Float} {s : Summary}

/-- The guard on the parameters lets exactly the proper ones pass. -/
theorem isProper_iff {mu sigma : Float} :
    IsProper mu sigma ↔ ¬ (!mu.isFinite || !sigma.isFinite || sigma ≤ 0.0) = true := by
  have hzero : (0.0 : Float).isNaN = false := rfl
  simp only [Bool.or_eq_true, Bool.not_eq_true', decide_eq_true_eq, not_or, Bool.not_eq_false]
  constructor
  · intro h
    have hnan := (not_isNaN_of_lt h.deviation_pos).2
    exact ⟨⟨h.location, h.deviation⟩, (not_le_iff hnan hzero).mpr h.deviation_pos⟩
  · rintro ⟨⟨hmu, hsigma⟩, hpos⟩
    exact ⟨hmu, hsigma, (not_le_iff (Double.isNaN_of_isFinite hsigma) hzero).mp hpos⟩

/-- **Behind validation.** -/
theorem estimateWith_of_admissible (log : Float → Float) (h : s.Admissible) :
    EstimateEnds log s (estimateWith log s) := by
  unfold estimateWith
  rw [Summary.validate_of_admissible h]
  show EstimateEnds log s (if ¬ 0.0 < extremePositionWith log s.count then _ else _)
  split
  · exact .noPosition ‹_›
  · dsimp only
    split
    · rename_i hguard
      exact .improper _ _ (fun hproper => isProper_iff.mp hproper hguard)
    · rename_i hguard
      exact .fitted _ (isProper_iff.mpr hguard)

theorem Summary.FirstFault.estimateWith_eq {e : FitError} (h : s.FirstFault e) :
    estimateWith log s = .error e := by
  unfold estimateWith
  rw [h.validate_eq]
  rfl

theorem admissible_of_estimateWith {fit : Fit} (h : estimateWith log s = .ok fit) :
    s.Admissible := by
  rcases s.admissible_or_firstFault with hs | ⟨e, he⟩
  · exact hs
  · rw [he.estimateWith_eq] at h
    cases h

theorem isProper_of_estimateWith {fit : Fit} (h : estimateWith log s = .ok fit) :
    IsProper fit.mu fit.sigma := by
  have hends := estimateWith_of_admissible log (admissible_of_estimateWith h)
  rw [h] at hends
  cases hends with
  | fitted _ hproper => exact hproper

end Estimate

/-- **Neither a bad summary nor a bad result is let through.** Whatever the logarithm yields, a fit
is that of a consistent summary and has proper parameters.  The first violated condition decides
the failure of any other summary, and a consistent one can only fail for its count or for the
parameters that were found. -/
theorem estimate_guards :
    estimateWith Float.log = estimate ∧
    ∀ (log : Float → Float) (s : Summary),
      (∀ fit, estimateWith log s = .ok fit → s.Admissible ∧ IsProper fit.mu fit.sigma) ∧
      (∀ e, s.FirstFault e → estimateWith log s = .error e) ∧
      (¬ s.Admissible → ∃ e, s.FirstFault e) ∧
      (s.Admissible → ∀ e, estimateWith log s = .error e →
        (e = .tooFewSamples s.count ∧ ¬ 0.0 < extremePositionWith log s.count) ∨
          ∃ mu sigma, e = .nonFinite mu sigma ∧ ¬ IsProper mu sigma) := by
  refine ⟨rfl, fun log s => ⟨?_, ?_, ?_, ?_⟩⟩
  · intro fit h
    exact ⟨admissible_of_estimateWith h, isProper_of_estimateWith h⟩
  · intro e he
    exact he.estimateWith_eq
  · intro h
    exact s.admissible_or_firstFault.resolve_left h
  · intro h e he
    have hends := estimateWith_of_admissible log h
    rw [he] at hends
    cases hends with
    | noPosition hz => exact .inl ⟨rfl, hz⟩
    | improper mu sigma himproper => exact .inr ⟨mu, sigma, rfl, himproper⟩

/-- The tangent of the logarithm fits a small sample; it does not fit one that is not bounded, and
nothing is fitted to a mean that is not a number or lies outside. -/
theorem estimate_guards_tangent :
    let log : Float → Float := fun x => x - 1.0
    (∃ fit, estimateWith log ⟨1.0, 3.0, 2.0, 2.0⟩ = .ok fit ∧ IsProper fit.mu fit.sigma) ∧
      estimateWith log ⟨1.0, 3.0, 0.0 / 0.0, 2.0⟩ = .error (.nonPositive .mean (0.0 / 0.0)) ∧
      (∃ e, Summary.FirstFault ⟨1.0, 3.0, 4.0, 2.0⟩ e) ∧
      ∃ mu sigma, estimateWith log ⟨1.0, 1.0 / 0.0, 2.0, 2.0⟩ = .error (.nonFinite mu sigma) ∧
        ¬ IsProper mu sigma := by
  intro log
  have hguards := estimate_guards.2 log
  refine ⟨?_, ?_, ?_, ?_⟩
  · have hok : (estimateWith log ⟨1.0, 3.0, 2.0, 2.0⟩).isOk = true := by decide +kernel
    cases h : estimateWith log ⟨1.0, 3.0, 2.0, 2.0⟩ with
    | error e => rw [h] at hok; cases hok
    | ok fit => exact ⟨fit, rfl, ((hguards _).1 fit h).2⟩
  · have hfault : Summary.FirstFault ⟨1.0, 3.0, 0.0 / 0.0, 2.0⟩ (.nonPositive .mean (0.0 / 0.0)) :=
      .mean (by decide +kernel) (by decide +kernel) (by decide +kernel)
    exact (hguards _).2.1 _ hfault
  · have houtside : ¬ Summary.Admissible ⟨1.0, 3.0, 4.0, 2.0⟩ := fun h =>
      absurd h.mean_le_maximum (by decide +kernel)
    exact (hguards _).2.2.1 houtside
  · have hadmissible : Summary.Admissible ⟨1.0, 1.0 / 0.0, 2.0, 2.0⟩ :=
      ⟨by decide +kernel, by decide +kernel, by decide +kernel, by decide +kernel,
        by decide +kernel⟩
    have hpos : 0.0 < extremePositionWith log 2.0 := by decide +kernel
    have herror : (estimateWith log ⟨1.0, 1.0 / 0.0, 2.0, 2.0⟩).isOk = false := by decide +kernel
    cases h : estimateWith log ⟨1.0, 1.0 / 0.0, 2.0, 2.0⟩ with
    | ok fit => rw [h] at herror; cases herror
    | error e =>
      rcases (hguards _).2.2.2 hadmissible e h with ⟨-, hz⟩ | ⟨mu, sigma, rfl, himproper⟩
      · exact absurd hpos hz
      · exact ⟨mu, sigma, rfl, himproper⟩

end WorkloadSynth
