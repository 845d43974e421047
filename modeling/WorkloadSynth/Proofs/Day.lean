import WorkloadSynth.Proofs.Draws
import WorkloadSynth.Stitch

/-!
# The columns of one day

How many values the columns of a synthesized day have, and which days are refused for it.  Every
source but a literal one yields as many values as it is asked for, and only the counts of a timer
are literal, so `check_synthesizeDay` finds a single way for a day to miss its minutes.
-/

namespace WorkloadSynth

/-! ## §1 — lengths of columns -/

namespace ColumnSource

variable {σ : Type} [RandomSource σ]

@[simp]
theorem lognormal_generate_length (mu sigma : Float) (n : Nat) (s : σ) :
    ((lognormal mu sigma).generate n s).1.length = n := by
  simp only [generate, List.length_map, drawMany_length]

@[simp]
theorem empirical_generate_length (ecdf : Ecdf) (n : Nat) (s : σ) :
    ((empirical ecdf).generate n s).1.length = n := by
  simp only [generate, List.length_map, drawMany_length]

@[simp]
theorem literal_generate_length (values : List Float) (n : Nat) (s : σ) :
    ((literal values).generate n s).1.length = values.length := by
  simp only [generate, List.length_map]

@[simp]
theorem constant_generate_length (value : Float) (n : Nat) (s : σ) :
    ((constant value).generate n s).1.length = n := by
  simp only [generate, List.length_replicate]

/-- Fitted distributions become lognormal sources. -/
theorem eq_lognormal_of_ofFit {fit : Fit} {source : ColumnSource} (h : ofFit fit = .ok source) :
    source = .lognormal fit.mu fit.sigma := by
  unfold ofFit at h
  split at h
  · exact (Except.ok.inj h).symm
  · cases h

end ColumnSource

theorem Trigger.isTimer_iff {t : Trigger} : t.isTimer = true ↔ t = .timer := by
  unfold isTimer
  exact decide_eq_true_iff

namespace Observation

/-- Both fitted sources are lognormal. -/
theorem fittedSources_lognormal {o : Observation} {exec memory : ColumnSource}
    (h : o.fittedSources = .ok (exec, memory)) :
    (∃ mu sigma, exec = .lognormal mu sigma) ∧ ∃ mu sigma, memory = .lognormal mu sigma := by
  unfold fittedSources at h
  cases he : estimate o.duration.summary.shift with
  | error e => rw [he] at h; cases h
  | ok execFit =>
    cases hm : estimate o.memory.summary.shift with
    | error e => rw [he, hm] at h; cases h
    | ok memoryFit =>
      rw [he, hm] at h
      cases hes : ColumnSource.ofFit execFit with
      | error e => simp only [bind, Except.bind, hes] at h; cases h
      | ok execSource =>
        cases hms : ColumnSource.ofFit memoryFit with
        | error e => simp only [bind, Except.bind, hes, hms] at h; cases h
        | ok memorySource =>
          simp only [bind, Except.bind, hes, hms, pure, Except.pure, Except.ok.injEq,
            Prod.mk.injEq] at h
          obtain ⟨rfl, rfl⟩ := h
          exact ⟨⟨_, _, ColumnSource.eq_lognormal_of_ofFit hes⟩,
            ⟨_, _, ColumnSource.eq_lognormal_of_ofFit hms⟩⟩

variable {σ : Type} [RandomSource σ]

theorem invocationSource_of_timer {o : Observation} (h : o.trigger.isTimer = true) :
    o.invocationSource = .literal o.samples := by
  unfold invocationSource
  rw [if_pos h]

theorem invocationSource_of_not_timer {o : Observation} (h : ¬ o.trigger.isTimer = true) :
    (∃ ecdf, Ecdf.ofSamples o.samples = some ecdf ∧ o.invocationSource = .empirical ecdf) ∨
      o.invocationSource = .constant 0.0 := by
  unfold invocationSource
  rw [if_neg h]
  split
  · rename_i ecdf he
    exact .inl ⟨ecdf, he, rfl⟩
  · exact .inr rfl

/-- Timers keep all their counts; other functions get one value per minute. -/
theorem invocationSource_generate_length (o : Observation) (s : σ) :
    (o.invocationSource.generate minutesPerDay s).1.length =
      if o.trigger.isTimer then o.invocations.length else minutesPerDay := by
  by_cases h : o.trigger.isTimer = true
  · rw [invocationSource_of_timer h, if_pos h, ColumnSource.literal_generate_length]
    exact List.length_map ..
  · rw [if_neg h]
    rcases invocationSource_of_not_timer h with ⟨ecdf, -, he⟩ | he
    · rw [he, ColumnSource.empirical_generate_length]
    · rw [he, ColumnSource.constant_generate_length]

end Observation

/-! ## §2 — the columns of a synthesized day -/

section Synthesized

variable {σ : Type} [RandomSource σ] (o : Observation) (functionCount : UInt64) (s : σ)

/-- **A fitted day.** The three columns are drawn one behind the other, and the memory of the
application is shared out after it was drawn. -/
theorem synthesizeDay_of_fitted {exec memory : ColumnSource}
    (h : o.fittedSources = .ok (exec, memory)) :
    synthesizeDay o functionCount s =
      let counts := o.invocationSource.generate minutesPerDay s
      let execTimes := exec.generate minutesPerDay counts.2
      let memories := memory.generate minutesPerDay execTimes.2
      ({ invocations := counts.1
         execTimes := execTimes.1
         memories := memories.1.map (· / functionCount.toFloat)
         fallback := none }, memories.2) := by
  unfold synthesizeDay
  rw [h]

/-- **A day without a fit.** Only the counts are drawn; the other columns are reported constants,
and the memory of the application is shared out before it is put at zero. -/
theorem synthesizeDay_of_fallback {e : FitError} (h : o.fittedSources = .error e) :
    synthesizeDay o functionCount s =
      let counts := o.invocationSource.generate minutesPerDay s
      ({ invocations := counts.1
         execTimes := List.replicate minutesPerDay (floorAtZero o.duration.median)
         memories := List.replicate minutesPerDay
           (floorAtZero (o.memory.average / functionCount.toFloat))
         fallback := some e }, counts.2) := by
  unfold synthesizeDay
  rw [h]
  rfl

/-- The counts come from their own source, whether there is a fit or not. -/
theorem synthesizeDay_invocations :
    (synthesizeDay o functionCount s).1.invocations =
      (o.invocationSource.generate minutesPerDay s).1 := by
  cases h : o.fittedSources with
  | error e => rw [synthesizeDay_of_fallback o functionCount s h]
  | ok sources => rw [synthesizeDay_of_fitted o functionCount s h]

theorem synthesizeDay_execTimes_of_fitted {exec memory : ColumnSource}
    (h : o.fittedSources = .ok (exec, memory)) :
    (synthesizeDay o functionCount s).1.execTimes =
      (exec.generate minutesPerDay (o.invocationSource.generate minutesPerDay s).2).1 := by
  rw [synthesizeDay_of_fitted o functionCount s h]

theorem synthesizeDay_memories_of_fitted {exec memory : ColumnSource}
    (h : o.fittedSources = .ok (exec, memory)) :
    (synthesizeDay o functionCount s).1.memories =
      (memory.generate minutesPerDay (exec.generate minutesPerDay
        (o.invocationSource.generate minutesPerDay s).2).2).1.map (· / functionCount.toFloat) := by
  rw [synthesizeDay_of_fitted o functionCount s h]

theorem synthesizeDay_execTimes_of_fallback {e : FitError} (h : o.fittedSources = .error e) :
    (synthesizeDay o functionCount s).1.execTimes =
      List.replicate minutesPerDay (floorAtZero o.duration.median) := by
  rw [synthesizeDay_of_fallback o functionCount s h]

theorem synthesizeDay_memories_of_fallback {e : FitError} (h : o.fittedSources = .error e) :
    (synthesizeDay o functionCount s).1.memories =
      List.replicate minutesPerDay (floorAtZero (o.memory.average / functionCount.toFloat)) := by
  rw [synthesizeDay_of_fallback o functionCount s h]

theorem synthesizeDay_fallback_eq :
    (synthesizeDay o functionCount s).1.fallback =
      match o.fittedSources with
      | .ok _ => none
      | .error e => some e := by
  cases h : o.fittedSources with
  | error e => rw [synthesizeDay_of_fallback o functionCount s h]
  | ok sources => rw [synthesizeDay_of_fitted o functionCount s h]

theorem synthesizeDay_state_of_fitted {exec memory : ColumnSource}
    (h : o.fittedSources = .ok (exec, memory)) :
    (synthesizeDay o functionCount s).2 =
      (memory.generate minutesPerDay (exec.generate minutesPerDay
        (o.invocationSource.generate minutesPerDay s).2).2).2 := by
  rw [synthesizeDay_of_fitted o functionCount s h]

theorem synthesizeDay_state_of_fallback {e : FitError} (h : o.fittedSources = .error e) :
    (synthesizeDay o functionCount s).2 = (o.invocationSource.generate minutesPerDay s).2 := by
  rw [synthesizeDay_of_fallback o functionCount s h]

theorem synthesizeDay_execTimes_length :
    (synthesizeDay o functionCount s).1.execTimes.length = minutesPerDay := by
  cases h : o.fittedSources with
  | error e =>
    rw [synthesizeDay_execTimes_of_fallback o functionCount s h, List.length_replicate]
  | ok sources =>
    obtain ⟨exec, memory⟩ := sources
    rw [synthesizeDay_execTimes_of_fitted o functionCount s h]
    obtain ⟨⟨mu, sigma, rfl⟩, -⟩ := Observation.fittedSources_lognormal h
    rw [ColumnSource.lognormal_generate_length]

theorem synthesizeDay_memories_length :
    (synthesizeDay o functionCount s).1.memories.length = minutesPerDay := by
  cases h : o.fittedSources with
  | error e =>
    rw [synthesizeDay_memories_of_fallback o functionCount s h, List.length_replicate]
  | ok sources =>
    obtain ⟨exec, memory⟩ := sources
    rw [synthesizeDay_memories_of_fitted o functionCount s h, List.length_map]
    obtain ⟨-, mu, sigma, rfl⟩ := Observation.fittedSources_lognormal h
    rw [ColumnSource.lognormal_generate_length]

theorem synthesizeDay_invocations_length :
    (synthesizeDay o functionCount s).1.invocations.length =
      if o.trigger.isTimer then o.invocations.length else minutesPerDay := by
  rw [synthesizeDay_invocations, Observation.invocationSource_generate_length]

/-- **The only refusal of a day.** A synthesized day has a value for every minute, unless it is the
day of a timer that was not observed for every minute. -/
theorem check_synthesizeDay (id : String) :
    (synthesizeDay o functionCount s).1.check id =
      if o.trigger.isTimer ∧ o.invocations.length ≠ minutesPerDay then
        .error (.schemaMismatch id .invocations minutesPerDay o.invocations.length)
      else .ok () := by
  unfold DayColumns.check checkColumn
  rw [synthesizeDay_invocations_length, synthesizeDay_execTimes_length,
    synthesizeDay_memories_length]
  by_cases ht : o.trigger.isTimer = true
  · by_cases hl : o.invocations.length = minutesPerDay
    · simp only [ht, hl, if_true, ne_eq, not_true_eq_false, and_false, if_false, bind, Except.bind]
    · simp only [ht, hl, if_true, if_false, ne_eq, not_false_eq_true, and_self, bind, Except.bind]
  · simp only [ht, if_false, if_true, false_and, bind, Except.bind, Bool.false_eq_true]

end Synthesized

end WorkloadSynth
