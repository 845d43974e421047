import WorkloadSynth.Proofs.FitGuards
import WorkloadSynth.Proofs.TwoRuns

/-!
# Days without a fit

Execution times and memory are either both drawn from fitted distributions or both constant.  Which
of the two is settled by the summaries alone (`fittedSources_eq_error_iff`): a fit has a finite
deviation, so it always makes a source.  The settled failure costs no words of the random source,
and the counts, which are drawn first, do not notice it.
-/

namespace WorkloadSynth

/-! ## §1 — which days have no fit -/

/-- A fit always makes a source of values. -/
theorem ColumnSource.ofFit_of_estimate {s : Summary} {fit : Fit} (h : estimate s = .ok fit) :
    ofFit fit = .ok (.lognormal fit.mu fit.sigma) :=
  if_pos (isProper_of_estimateWith h).deviation

/-- The first summary of an observation that cannot be fitted, and why. -/
inductive Observation.Misfit (o : Observation) : FitError → Prop where
  | duration {e : FitError} (h : estimate o.duration.summary.shift = .error e) : Misfit o e
  | memory {e : FitError} (fit : Fit) (h : estimate o.duration.summary.shift = .ok fit)
      (h' : estimate o.memory.summary.shift = .error e) : Misfit o e

theorem bind_eq_error_iff {ε α β : Type} {x : Except ε α} {f : α → Except ε β} {e : ε} :
    (x >>= f) = .error e ↔ x = .error e ∨ ∃ a, x = .ok a ∧ f a = .error e := by
  cases x with
  | error e' => simp [bind, Except.bind]
  | ok a => simp [bind, Except.bind]

/-- **Only a summary can fail.** -/
theorem Observation.fittedSources_eq_error_iff {o : Observation} {e : FitError} :
    o.fittedSources = .error e ↔ o.Misfit e := by
  unfold fittedSources
  rw [bind_eq_error_iff]
  constructor
  · rintro (h | ⟨exec, hexec, h⟩)
    · exact .duration h
    · rcases bind_eq_error_iff.mp h with h | ⟨memory, hmemory, h⟩
      · exact .memory exec hexec h
      -- with both fits there are both sources
      · rw [ColumnSource.ofFit_of_estimate hexec, ColumnSource.ofFit_of_estimate hmemory] at h
        cases h
  · rintro (h | ⟨exec, hexec, h⟩)
    · exact .inl h
    · exact .inr ⟨exec, hexec, bind_eq_error_iff.mpr (.inl h)⟩

/-! ## §2 — what such a day costs -/

section Words

variable {σ : Type} [RandomSource σ]

/-- The words that the counts of a day take: one per minute if there is something to resample. -/
theorem invocationSource_words (o : Observation) (s : σ) :
    (o.invocationSource.generate minutesPerDay s).2 =
      if o.trigger ≠ .timer ∧ o.invocations ≠ [] then afterWord^[minutesPerDay] s else s := by
  by_cases hne : o.invocations = []
  · rw [if_neg (fun h => h.2 hne)]
    by_cases ht : o.trigger.isTimer = true
    · rw [Observation.invocationSource_of_timer ht]
      rfl
    · have hsource : o.invocationSource = .constant 0.0 := by
        unfold Observation.invocationSource Observation.samples
        rw [if_neg ht, hne]
        simp [Ecdf.ofSamples, Ecdf.stepsFrom]
      rw [hsource]
      rfl
  · rw [invocationSource_state hne]
    simp [Trigger.isTimer_iff, hne]

theorem invocationSource_congr {o o' : Observation} (htrigger : o'.trigger = o.trigger)
    (hcounts : o'.invocations = o.invocations) : o'.invocationSource = o.invocationSource := by
  unfold Observation.invocationSource Observation.samples
  rw [htrigger, hcounts]

/-- **All or nothing.** A day falls back exactly if one of its summaries cannot be fitted, and for
the first reason found.  Both of its columns are then reported constants, and only the counts have
taken words, one per minute if they are resampled at all.  The counts are the same for every
observation with this trigger and these invocations, fitted or not. -/
theorem synthesizeDay_fallback (o : Observation) (functionCount : UInt64) (s : σ) :
    let day := synthesizeDay o functionCount s
    (∀ e, day.1.fallback = some e ↔ o.Misfit e) ∧
      (day.1.fallback.isSome = true →
        day.1.execTimes = List.replicate minutesPerDay (floorAtZero o.duration.median) ∧
        day.1.memories =
          List.replicate minutesPerDay (floorAtZero (o.memory.average / functionCount.toFloat)) ∧
        day.2 = if o.trigger ≠ .timer ∧ o.invocations ≠ [] then afterWord^[minutesPerDay] s
          else s) ∧
      ∀ (o' : Observation) (functionCount' : UInt64),
        o'.trigger = o.trigger → o'.invocations = o.invocations →
        (synthesizeDay o' functionCount' s).1.invocations = day.1.invocations := by
  intro day
  have hreason : day.1.fallback = _ := synthesizeDay_fallback_eq o functionCount s
  refine ⟨fun e => ?_, fun hfallback => ?_, fun o' functionCount' htrigger hcounts => ?_⟩
  · rw [hreason, ← Observation.fittedSources_eq_error_iff]
    cases o.fittedSources with
    | ok sources => simp
    | error e' => simp
  · cases hsources : o.fittedSources with
    | ok sources =>
      rw [hreason, hsources] at hfallback
      cases hfallback
    | error e =>
      refine ⟨synthesizeDay_execTimes_of_fallback o functionCount s hsources,
        synthesizeDay_memories_of_fallback o functionCount s hsources, ?_⟩
      rw [← invocationSource_words]
      exact synthesizeDay_state_of_fallback o functionCount s hsources
  · show _ = (synthesizeDay o functionCount s).1.invocations
    rw [synthesizeDay_invocations, synthesizeDay_invocations,
      invocationSource_congr htrigger hcounts]

end Words

/-- An idle day is too small a sample, and takes a word for each of its minutes. -/
theorem synthesizeDay_fallback_idle :
    let day := synthesizeDay idleObservation 2 (WordCycle.ofList [1, 2])
    day.1.fallback = some (.tooFewSamples 1.0) ∧
      day.1.memories = List.replicate minutesPerDay 0.0 ∧
      day.2 = afterWord^[minutesPerDay] (WordCycle.ofList [1, 2]) ∧
      (synthesizeDay { idleObservation with memory.average := 3.0, id := "g" } 1
        (WordCycle.ofList [1, 2])).1.invocations = day.1.invocations := by
  intro day
  obtain ⟨hreason, hconstants, hcounts⟩ :=
    synthesizeDay_fallback idleObservation 2 (WordCycle.ofList [1, 2])
  have hmisfit : idleObservation.Misfit (.tooFewSamples 1.0) := by
    have hshift : idleObservation.duration.summary.shift = ⟨1.0, 1.0, 1.0, 1.0⟩ := by
      decide +kernel
    refine .duration ?_
    rw [hshift]
    exact Summary.FirstFault.estimateWith_eq (.count ⟨by decide, by decide, by decide⟩ (by decide))
  have hfallback := (hreason _).mpr hmisfit
  obtain ⟨-, hmemories, hstate⟩ := hconstants (by rw [hfallback]; rfl)
  refine ⟨hfallback, ?_, ?_, hcounts _ 1 rfl rfl⟩
  · refine hmemories.trans ?_
    rw [show floorAtZero (idleObservation.memory.average / (2 : UInt64).toFloat) = 0.0 by
      decide +kernel]
  · exact hstate.trans (if_pos ⟨by decide, by decide⟩)

end WorkloadSynth
